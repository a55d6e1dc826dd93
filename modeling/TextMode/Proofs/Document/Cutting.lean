import Mathlib
import TextMode.Proofs.Content.Balance
import TextMode.Proofs.Content.Splitting
import TextMode.Proofs.Document.Syntax
import TextMode.Proofs.Notation.Items
import TextMode.Proofs.Text.Runs

/-!
# Written documents are cut at their passages

What is written for a document is balanced, so a document in a text box never ends
the island around it.  Terms keep out the delimiters of islands at their own level as
well.  Hence the cut of a written document has one span for each passage.
-/

namespace TextMode.Document

/-! ## Balance -/

theorem isInert_special {char : Char} (hchar : char ∈ specials) : IsInert [char] := by
  intro c hc
  obtain rfl : c = char := List.mem_singleton.mp hc
  have hspecials : ∀ d ∈ specials, d ∉ ['\\', '{', '}', '%', '$'] := by
    simp [specials]
  exact hspecials c hchar

theorem isInert_run {run : Text} (hrun : IsCharacterRun run) : IsInert run :=
  fun c hc => (hrun.2 c hc).1

/-- Plain text is balanced once it is escaped.  All its braces and backslashes stand behind
backslashes, and it holds no percent sign that would start a comment. -/
theorem balanced_escape {text : Text} (hcomment : '%' ∉ text) : Balanced (escape text) := by
  induction text with
  | nil => exact .nil
  | cons c text ih =>
      have hrest := ih fun hmem => hcomment (List.mem_cons_of_mem _ hmem)
      rw [escape_cons]
      split
      · exact .escape hrest
      · next hc =>
          have hc' : c ≠ '%' := by
            intro heq
            apply hcomment
            rw [heq]
            exact List.mem_cons_self ..
          simp only [IsLiteralEscape, not_or] at hc
          exact .char hc.2.2.2 hc.2.1 hc.2.2.1 hc' hrest

/-- The backslash of a control takes one character with it.  What is left of the name are
letters. -/
theorem balanced_control {name : Text} (hname : IsControlName name) :
    Balanced ('\\' :: name) := by
  rcases hname with ⟨hne, hletters⟩ | ⟨c, rfl, -, -⟩
  · cases name with
    | nil => exact absurd rfl hne
    | cons c name =>
        apply Balanced.escape
        apply balanced_of_isInert
        exact (isInert_letters hletters).cons.2
  · exact .escape .nil

theorem letters_of_command? (enclosure : Enclosure) {name : Text}
    (hcommand : enclosure.command? = some name) : name ≠ [] ∧ ∀ c ∈ name, c.isAlpha := by
  rw [← List.all_eq_true]
  cases enclosure with
  | dollar | parenthesis => simp [Enclosure.command?] at hcommand
  | ref | eqref =>
      obtain rfl := Option.some.inj hcommand
      decide

theorem balanced_braces {inner : Text} (hinner : Balanced inner) :
    Balanced ('{' :: (inner ++ ['}'])) :=
  .braces hinner .nil

/-- An island is balanced from its opening to its delimiter if its source is.  The
delimiters are dollars, escapes or a pair of braces. -/
theorem balanced_enclosed (enclosure : Enclosure) {inner : Text} (hinner : Balanced inner) :
    Balanced (enclosure.opening ++ (inner ++ enclosure.kind.delimiter)) := by
  cases enclosure with
  | dollar =>
      have hdollar : Balanced ['$'] :=
        .char (by decide) (by decide) (by decide) (by decide) .nil
      exact hdollar.append (hinner.append hdollar)
  | parenthesis =>
      have hopening : Balanced ['\\', '('] := .escape .nil
      have hclosing : Balanced ['\\', ')'] := .escape .nil
      exact hopening.append (hinner.append hclosing)
  | ref =>
      have hname := balanced_control (.inl (letters_of_command? .ref rfl))
      exact hname.append (balanced_braces hinner)
  | eqref =>
      have hname := balanced_control (.inl (letters_of_command? .eqref rfl))
      exact hname.append (balanced_braces hinner)

mutual

theorem balanced_passage : ∀ passage : Passage, passage.WellFormed → Balanced passage.written
  | .plain text => by
      intro hplain
      exact balanced_escape hplain.2
  | .island enclosure terms => by
      intro hterms
      exact balanced_enclosed enclosure (balanced_terms terms hterms)

/-- Written documents are balanced at every depth, by induction on documents and terms at
once.  So a document can stand between the braces of a text box. -/
theorem balanced_passages : ∀ passages : List Passage, WellFormedPassages passages →
    Balanced (writtenPassages passages)
  | [] => fun _ => .nil
  | passage :: passages => by
      intro hwell
      exact (balanced_passage passage hwell.1).append (balanced_passages passages hwell.2.2)

theorem balanced_term : ∀ term : Term, term.WellFormed → Balanced term.written
  | .control name => by
      intro hname
      exact balanced_control hname
  | .special char => by
      intro hchar
      exact balanced_of_isInert (isInert_special hchar)
  | .characters run => by
      intro hrun
      exact balanced_of_isInert (isInert_run hrun)
  | .group terms => by
      intro hterms
      exact balanced_braces (balanced_terms terms hterms)
  | .textBox command body => by
      intro hbody
      have hname := balanced_control (.inl (Notation.Element.letters_name command))
      exact hname.append (balanced_braces (balanced_passages body hbody))

theorem balanced_terms : ∀ terms : List Term, WellFormedTerms terms →
    Balanced (spaced (writtenTerms terms))
  | [] => fun _ => .nil
  | term :: terms => by
      intro hwell
      have hterm := balanced_term term hwell.1
      have hterms := balanced_terms terms hwell.2.2
      rw [writtenTerms, spaced_cons]
      apply hterm.append
      split
      · exact .nil
      · exact .char (by decide) (by decide) (by decide) (by decide) hterms

end

/-! ## Islands -/

theorem inside_control {kind : IslandKind} {depth : Nat} {name rest : Text}
    (hname : IsControlName name) (hrest : Inside kind depth rest) :
    Inside kind depth ('\\' :: name ++ rest) := by
  rcases hname with ⟨hne, hletters⟩ | ⟨c, rfl, -, hc⟩
  · exact inside_command hne hletters hrest
  · exact .escape (fun hdelimiter => hc hdelimiter.2.2) hrest

mutual

/-- A term can be put in front of the source of an island.  Its braces are nested, so it
changes neither the depth nor the place where the island ends. -/
theorem inside_term {kind : IslandKind} : ∀ term : Term, term.WellFormed →
    ∀ {depth : Nat} {rest : Text}, Inside kind depth rest →
      Inside kind depth (term.written ++ rest)
  | .control name => by
      intro hname depth rest hrest
      exact inside_control hname hrest
  | .special char => by
      intro hchar depth rest hrest
      exact inside_of_isInert (isInert_special hchar) hrest
  | .characters run => by
      intro hrun depth rest hrest
      exact inside_of_isInert (isInert_run hrun) hrest
  | .group terms => by
      intro hterms depth rest hrest
      have hinner := inside_terms terms hterms (Inside.closeBrace hrest)
      rw [Term.written, List.cons_append, List.append_assoc]
      exact .openBrace hinner
  | .textBox command body => by
      intro hbody depth rest hrest
      have hinner := (balanced_passages body hbody).inside (Inside.closeBrace hrest)
      have hname := inside_control (.inl (Notation.Element.letters_name command))
        (Inside.openBrace hinner)
      simpa [Term.written] using hname

/-- Terms hold no delimiter of an island outside their braces.  A dollar is no character of
a run, and a control is not named by a parenthesis that closes. -/
theorem inside_terms {kind : IslandKind} : ∀ terms : List Term, WellFormedTerms terms →
    ∀ {depth : Nat} {rest : Text}, Inside kind depth rest →
      Inside kind depth (spaced (writtenTerms terms) ++ rest)
  | [] => by
      intro _ depth rest hrest
      exact hrest
  | term :: terms => by
      intro hwell depth rest hrest
      rw [writtenTerms, spaced_cons, List.append_assoc]
      apply inside_term term hwell.1
      split
      · exact hrest
      · exact .char (by decide) (by decide) (by decide) (by simp)
          (inside_terms terms hwell.2.2 hrest)

end

/-! ## Cuts -/

/-- Resolving escapes undoes escaping.  What is escaped is just what a reader resolves. -/
theorem resolveEscapes_escape (text : Text) : resolveEscapes (escape text) = text := by
  induction text with
  | nil => rfl
  | cons c text ih =>
      rw [escape_cons]
      split
      · next hc => simp [resolveEscapes, hc, ih]
      · next hc =>
          have hescape : c ≠ '\\' := by
            intro heq
            exact hc (.inr (.inr (.inr heq)))
          rw [List.cons_append, resolveEscapes_char hescape, List.nil_append, ih]

/-- A reference opening shows in the character behind its backslash.  It is a letter, and no
letter is escaped. -/
theorem not_startsReference_of_isLiteralEscape {c : Char} (hc : IsLiteralEscape c)
    (rest : Text) : ¬ StartsReference ('\\' :: c :: rest) := by
  intro hstarts
  rcases hstarts with ⟨opening, body, ⟨name, blanks, hname, -, rfl⟩, heq⟩
  rcases hname with rfl | rfl <;> simp at heq <;> rcases hc with rfl | rfl | rfl | rfl <;>
    simp at heq

theorem escape_ne_nil {text : Text} (hne : text ≠ []) : escape text ≠ [] := by
  intro hescape
  have htext := resolveEscapes_escape text
  rw [hescape] at htext
  exact hne htext.symm

/-- Escaped text is one run of plain text, whatever stands behind it.  No opening starts in
it, since its dollars and backslashes are escaped. -/
theorem plainRun_escape (text rest : Text) : PlainRun (escape text) rest := by
  induction text with
  | nil => exact .nil
  | cons c text ih =>
      rw [escape_cons]
      split
      · next hc =>
          have hparenthesis : c ≠ '(' := by
            intro heq
            rw [heq] at hc
            exact absurd hc (by decide)
          exact .escape hparenthesis (not_startsReference_of_isLiteralEscape hc _) ih
      · next hc =>
          simp only [IsLiteralEscape, not_or] at hc
          exact .char hc.1 hc.2.2.2 ih

def Passage.span : Passage → Span
  | .plain text => .plain (escape text)
  | .island enclosure terms =>
      .island enclosure.kind enclosure.opening (spaced (writtenTerms terms))

theorem Enclosure.opens (enclosure : Enclosure) :
    enclosure.kind.Opens enclosure.opening := by
  cases enclosure with
  | dollar => rfl
  | parenthesis => rfl
  | ref => exact ⟨"ref".toList, [], .inl rfl, by simp, by simp [opening]⟩
  | eqref => exact ⟨"eqref".toList, [], .inr rfl, by simp, by simp [opening]⟩

/-- A written document is cut into its passages.  No two plain texts are adjacent, so the
cut has a span for each passage. -/
theorem cut_writtenPassages : ∀ passages : List Passage, WellFormedPassages passages →
    Cut (writtenPassages passages) (passages.map Passage.span)
  | [] => fun _ => .nil
  | .plain text :: passages => by
      intro hwell
      have hrest := cut_writtenPassages passages hwell.2.2
      refine .plain (escape_ne_nil hwell.1.1) (plainRun_escape text _) ?_ hrest
      intro other hhead
      cases passages with
      | nil => simp at hhead
      | cons next passages =>
          cases next with
          | plain text => exact hwell.2.1
          | island enclosure terms => simp [Passage.span] at hhead
  | .island enclosure terms :: passages => by
      intro hwell
      have hrest := cut_writtenPassages passages hwell.2.2
      have hinside := inside_terms terms hwell.1 (.nil : Inside enclosure.kind 0 [])
      rw [List.append_nil] at hinside
      have hisland := Cut.island enclosure.opens hinside hrest
      simpa [writtenPassages, Passage.written, Passage.span] using hisland

end TextMode.Document
