import Mathlib
import TextMode.Proofs.Document.Cutting
import TextMode.Proofs.Notation.Nesting

/-!
# Written terms are read as elements

Spaces keep the tokens of written terms apart, so each term is read as the element it
stands for.  The body of a text box is only required to be balanced here: it nests as
items that spell it, and it becomes the body of the element unread.
-/

namespace TextMode.Document

open TextMode.Text (isBlank)
open TextMode.Notation

mutual

def Term.element : Term → Element
  | .control name => .control name
  | .special char => .special char
  | .characters run => .characters run
  | .group terms => .group (termElements terms)
  | .textBox command body => .textBox command (writtenPassages body)

def termElements : List Term → List Element
  | [] => []
  | term :: terms => term.element :: termElements terms

end

/-- What may stand behind a written term. -/
def EndsTerm (rest : Text) : Prop :=
  rest.head?.all fun c => c = ' ' || c = '}'

/-- A term ends in front of a space, a close brace or the end of the text.  No class of
characters that leaves out the two goes on there. -/
theorem EndsTerm.not_accepted {rest : Text} (hrest : EndsTerm rest) {accepts : Char → Bool}
    (hspace : accepts ' ' = false) (hclose : accepts '}' = false) :
    rest.head?.all fun c => !accepts c := by
  cases rest with
  | nil => rfl
  | cons c rest =>
      have hc : c = ' ' ∨ c = '}' := by simpa [EndsTerm] using hrest
      rcases hc with rfl | rfl
      · simp [hspace]
      · simp [hclose]

/-- The items of a term that stands before `rest`.  They make the element of the term,
and they start with a group only if the term is one. -/
structure ReadsAsTerm (term : Term) (items : List Item) (rest : Text) : Prop where
  nests : NestsAs term.written items rest
  element : ∀ following,
    (∀ name, term = .control name → Element.StartsWithGroup following →
      TextCommand.ofName? name = none) →
    Element.ofItems none (items ++ following) = term.element :: Element.ofItems none following
  group : ∀ following, Element.StartsWithGroup (items ++ following) →
    ∃ terms, term = .group terms

structure ReadsAsTerms (terms : List Term) (items : List Item) (rest : Text) : Prop where
  nests : NestsAs (spaced (writtenTerms terms)) items rest
  elements : Element.ofItems none items = termElements terms
  group : Element.StartsWithGroup items → ∃ members others, terms = .group members :: others

theorem not_startsWithGroup_single {token : Token} (htrivia : token.isTrivia = false)
    (following : List Item) : ¬ Element.StartsWithGroup (.single token :: following) := by
  intro hgroup
  rw [Element.StartsWithGroup, htrivia] at hgroup
  exact Bool.false_ne_true hgroup.1

/-- A token that means the same wherever it stands. -/
theorem readsAsTerm_token {term : Term} {token : Token} {rest : Text}
    (hnests : NestsAs term.written [.single token] rest) (htrivia : token.isTrivia = false)
    (hcommand : ∀ name, token = .controlWord name → TextCommand.ofName? name = none)
    (helement : Element.ofToken token = [term.element]) :
    ReadsAsTerm term [.single token] rest where
  nests := hnests
  element := by
    intro following _
    rw [List.cons_append, List.nil_append, Element.ofItems_token htrivia hcommand, helement]
    rfl
  group := fun following hgroup => absurd hgroup (not_startsWithGroup_single htrivia following)

/-- A text command stands for itself if no group follows it.  In a document none does,
unless it is a text box. -/
theorem readsAsTerm_command {name rest : Text} {command : TextCommand}
    (hcommand : TextCommand.ofName? name = some command)
    (hnests : NestsAs ('\\' :: name) [.single (.controlWord name)] rest) :
    ReadsAsTerm (.control name) [.single (.controlWord name)] rest where
  nests := hnests
  element := by
    intro following hfollowing
    have hgroup : ¬ Element.StartsWithGroup following := by
      intro hgroup
      simp [hfollowing name rfl hgroup] at hcommand
    rw [List.cons_append, List.nil_append, Element.ofItems_command hcommand,
      Element.ofItems_waiting command _ hgroup, Element.name_of_ofName? hcommand]
    rfl
  group := fun following hgroup => absurd hgroup (not_startsWithGroup_single rfl following)

/-- A control is read as one token, a word or a symbol.  A word takes letters only, and none
stands where a term ends. -/
theorem exists_readsAsTerm_control {name : Text} (hname : IsControlName name) {rest : Text}
    (hrest : EndsTerm rest) : ∃ items, ReadsAsTerm (.control name) items rest := by
  rcases hname with ⟨hne, hletters⟩ | ⟨c, rfl, hc, -⟩
  · have hnests := nestsAs_controlWord hne hletters (hrest.not_accepted rfl rfl)
    cases hcommand : TextCommand.ofName? name with
    | none => exact ⟨_, readsAsTerm_token hnests rfl (by simp [hcommand]) rfl⟩
    | some command => exact ⟨_, readsAsTerm_command hcommand hnests⟩
  · exact ⟨_, readsAsTerm_token (nestsAs_controlSymbol rest hc) rfl (by simp) rfl⟩

theorem isSpecial_of_mem {c : Char} (hc : c ∈ specials) : isSpecial c ∧ isBlank c = false := by
  simp only [specials] at hc
  fin_cases hc <;> decide

theorem isOrdinary_of_mem {run : Text} (hrun : IsCharacterRun run) {c : Char} (hc : c ∈ run) :
    isOrdinary c := by
  obtain ⟨hstructure, hspecial, hblank⟩ := hrun.2 c hc
  simp only [specials, List.mem_cons, List.not_mem_nil, or_false, not_or] at hstructure hspecial
  simp [isOrdinary, isSpecial, hstructure, hspecial, hblank]

/-- Every written term starts with a character that ends a run of blanks.  So the space in
front of it is a token of its own. -/
theorem head_written : ∀ {term : Term}, term.WellFormed →
    ∃ c tail, term.written = c :: tail ∧ isBlank c = false
  | .control _, _ | .group _, _ | .textBox _ _, _ => ⟨_, _, rfl, by decide⟩
  | .special char, hchar => ⟨char, [], rfl, (isSpecial_of_mem hchar).2⟩
  | .characters [], hrun => absurd rfl hrun.1
  | .characters (c :: run), hrun => ⟨c, run, rfl, (hrun.2 c (List.mem_cons_self ..)).2.2⟩

/-- Whatever a text box holds becomes its body unread.  The items inside spell the written
document, and that is all that is needed of them. -/
theorem readsAsTerm_textBox (command : TextCommand) {body : List Passage} {items : List Item}
    {rest : Text} (hlexemes : Item.lexemes items = writtenPassages body)
    (hbody : NestsAs (writtenPassages body) items ('}' :: rest)) :
    ReadsAsTerm (.textBox command body)
      [.single (.controlWord command.name), .group items] rest where
  nests := nestsAs_command (Element.letters_name command).1 (Element.letters_name command).2 hbody
  element := by
    intro following _
    rw [List.cons_append, List.cons_append, List.nil_append,
      Element.ofItems_command (Element.ofName?_name command), Element.ofItems_box, hlexemes]
    rfl
  group := fun following hgroup => absurd hgroup (not_startsWithGroup_single rfl _)

/-- A group is read as the items of its terms between two braces. -/
theorem readsAsTerm_group {terms : List Term} {items : List Item} {rest : Text}
    (hterms : ReadsAsTerms terms items ('}' :: rest)) :
    ReadsAsTerm (.group terms) [.group items] rest where
  nests := hterms.nests.braces
  element := by
    intro following _
    rw [List.cons_append, List.nil_append, Element.ofItems_group, hterms.elements]
    rfl
  group := fun following _ => ⟨terms, rfl⟩

/-! ## Lists of terms -/

theorem readsAsTerms_singleton {term : Term} {items : List Item} {rest : Text}
    (hterm : ReadsAsTerm term items rest) : ReadsAsTerms [term] items rest where
  nests := by
    rw [writtenTerms, spaced_cons, writtenTerms, if_pos rfl, List.append_nil]
    exact hterm.nests
  elements := by
    have hitems := hterm.element [] fun _ _ hstarts => absurd hstarts id
    rwa [List.append_nil] at hitems
  group := by
    intro hstarts
    rw [← List.append_nil items] at hstarts
    obtain ⟨members, rfl⟩ := hterm.group [] hstarts
    exact ⟨members, [], rfl⟩

/-- The space between two terms is one token of blanks, because the next term starts with a
character that is not blank. -/
theorem nestsAs_space {terms : List Term} (hne : terms ≠ []) (hwell : WellFormedTerms terms)
    (rest : Text) :
    NestsAs [' '] [.single (.blanks [' '])] (spaced (writtenTerms terms) ++ rest) := by
  apply nestsAs_blanks (by simp) (by simp; decide)
  cases terms with
  | nil => exact absurd rfl hne
  | cons term terms =>
      obtain ⟨c, tail, hhead, hc⟩ := head_written hwell.1
      simp [writtenTerms, spaced_cons, hhead, hc]

/-- A space keeps the items of two terms apart.  It is trivia, so a text command still
meets the group behind it. -/
theorem readsAsTerms_cons {term : Term} {terms : List Term} {items others : List Item}
    {rest : Text} (hne : terms ≠ []) (hwell : WellFormedTerms (term :: terms))
    (hterm : ReadsAsTerm term items (' ' :: spaced (writtenTerms terms) ++ rest))
    (hterms : ReadsAsTerms terms others rest) :
    ReadsAsTerms (term :: terms) (items ++ (.single (.blanks [' ']) :: others)) rest where
  nests := by
    have hwritten : writtenTerms terms ≠ [] := by
      cases terms with
      | nil => exact absurd rfl hne
      | cons next terms => simp [writtenTerms]
    have hspace := nestsAs_space hne hwell.2.2 rest
    rw [writtenTerms, spaced_cons, if_neg hwritten]
    exact hterm.nests.append (hspace.append hterms.nests)
  elements := by
    rw [hterm.element, Element.ofItems_trivia rfl, hterms.elements, termElements]
    intro name hcontrol hstarts
    obtain ⟨members, after, hnext⟩ := hterms.group hstarts.2
    have hmay := hwell.2.1
    rw [hcontrol, hnext] at hmay
    exact hmay
  group := by
    intro hstarts
    obtain ⟨members, rfl⟩ := hterm.group _ hstarts
    exact ⟨members, terms, rfl⟩

mutual

/-- Every written term is read as its element where a term may end.  The induction is on
terms and lists of terms at once. -/
theorem exists_readsAsTerm : ∀ term : Term, term.WellFormed → ∀ {rest : Text}, EndsTerm rest →
    ∃ items, ReadsAsTerm term items rest
  | .control name => by
      intro hname rest hrest
      exact exists_readsAsTerm_control hname hrest
  | .special char => by
      intro hchar rest hrest
      have hspecial := (isSpecial_of_mem hchar).1
      exact ⟨_, readsAsTerm_token (nestsAs_special rest hspecial) rfl (by simp) rfl⟩
  | .characters run => by
      intro hrun rest hrest
      have hnests := nestsAs_characters hrun.1 (fun c hc => isOrdinary_of_mem hrun hc)
        (hrest.not_accepted rfl rfl)
      exact ⟨_, readsAsTerm_token hnests rfl (by simp) rfl⟩
  | .group terms => by
      intro hterms rest hrest
      have hclose : EndsTerm ('}' :: rest) := by simp [EndsTerm]
      obtain ⟨items, hitems⟩ := exists_readsAsTerms terms hterms hclose
      exact ⟨_, readsAsTerm_group hitems⟩
  | .textBox command body => by
      intro hbody rest hrest
      obtain ⟨items, hlexemes, hnests⟩ :=
        exists_nestsAs_of_balanced (balanced_passages body hbody) rest
      exact ⟨_, readsAsTerm_textBox command hlexemes hnests⟩

/-- Written terms are read as their elements up to the end of a group or of a text.  Spaces
between them are trivia and leave no element. -/
theorem exists_readsAsTerms : ∀ terms : List Term, WellFormedTerms terms → ∀ {rest : Text},
    EndsTerm rest → ∃ items, ReadsAsTerms terms items rest
  | [] => by
      intro _ rest hrest
      exact ⟨[], .nil rest, rfl, fun hgroup => absurd hgroup id⟩
  | [term] => by
      intro hwell rest hrest
      obtain ⟨items, hterm⟩ := exists_readsAsTerm term hwell.1 hrest
      exact ⟨items, readsAsTerms_singleton hterm⟩
  | term :: next :: terms => by
      intro hwell rest hrest
      have hspace : EndsTerm (' ' :: spaced (writtenTerms (next :: terms)) ++ rest) := by
        simp [EndsTerm]
      obtain ⟨items, hterm⟩ := exists_readsAsTerm term hwell.1 hspace
      obtain ⟨others, hterms⟩ := exists_readsAsTerms (next :: terms) hwell.2.2 hrest
      exact ⟨_, readsAsTerms_cons (by simp) hwell hterm hterms⟩

end

/-! ## Islands -/

namespace Enclosure

/-- What is handed to the reader of notation for an island. -/
def source (enclosure : Enclosure) (inner : Text) : Text :=
  match enclosure.command? with
  | none => inner
  | some name => '\\' :: name ++ '{' :: (inner ++ ['}'])

def elements (enclosure : Enclosure) (inner : List Element) : List Element :=
  match enclosure.command? with
  | none => inner
  | some name => [.control name, .group inner]

theorem piece_span (enclosure : Enclosure) (terms : List Term) :
    (Passage.island enclosure terms).span.piece =
      .island enclosure.kind (enclosure.source (spaced (writtenTerms terms))) := by
  cases enclosure <;> simp [Passage.span, Span.piece, kind, source, command?, opening]

end Enclosure

/-- The command of a reference is no text command.  So the group behind it is a group and no
text box. -/
theorem ofName?_of_command? {enclosure : Enclosure} {name : Text}
    (hcommand : enclosure.command? = some name) : TextCommand.ofName? name = none := by
  cases enclosure with
  | dollar | parenthesis => simp [Enclosure.command?] at hcommand
  | ref | eqref =>
      obtain rfl := Option.some.inj hcommand
      decide

/-- A text that nests as items up to its end is read as the elements of these items. -/
theorem read_of_nestsAs {text : Text} {items : List Item} (hnests : NestsAs text items []) :
    Element.read text = .ok (Element.ofItems none items) := by
  rw [Element.read, hnests.read]
  rfl

/-- An island is read as the elements of its terms, behind its command if it has one.  The
source of a reference holds the command and the braces as well. -/
theorem elements_of_source (enclosure : Enclosure) {terms : List Term}
    (hterms : WellFormedTerms terms) :
    Element.read (enclosure.source (spaced (writtenTerms terms))) =
      .ok (enclosure.elements (termElements terms)) := by
  rw [Enclosure.source, Enclosure.elements]
  cases hcommand : enclosure.command? with
  | none =>
      have hend : EndsTerm [] := rfl
      obtain ⟨items, hitems⟩ := exists_readsAsTerms terms hterms hend
      exact (read_of_nestsAs hitems.nests).trans (congrArg Except.ok hitems.elements)
  | some name =>
      have hclose : EndsTerm ['}'] := rfl
      obtain ⟨items, hitems⟩ := exists_readsAsTerms terms hterms hclose
      obtain ⟨hne, hletters⟩ := letters_of_command? enclosure hcommand
      have hnone : TextCommand.ofName? name = none := ofName?_of_command? hcommand
      rw [read_of_nestsAs (nestsAs_command hne hletters hitems.nests), Element.ofItems_token rfl
        (by simp [hnone]), Element.ofItems_group, hitems.elements]
      rfl

end TextMode.Document
