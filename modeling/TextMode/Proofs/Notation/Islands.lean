import Mathlib
import TextMode.Proofs.Content.Splitting
import TextMode.Proofs.Notation.Braces

/-!
# Islands nest

The splitter counts the braces of an island to find its end, and the reader of notation
nests them.  On the islands of a text the two agree up to comments, which only the reader
knows.  A reference is always nested, and its tree has the same shape whatever it holds.
-/

namespace TextMode

open TextMode.Notation

/-! ## The source of an island -/

theorem Inside.paired {kind : IslandKind} {depth : Nat} {source : Text}
    (hinside : Inside kind depth source) : Paired source := by
  induction hinside with
  | nil => exact .nil
  | openBrace _ ih | closeBrace _ ih | looseBrace _ _ ih => exact .char (by decide) ih
  | escape _ _ ih => exact .escape ih
  | char _ _ hescape _ _ ih => exact .char hescape ih

/-- The source of a reference ends at its first closing brace outside its braces, so there
is none inside it. -/
theorem Inside.looseBrace_not_mem {depth : Nat} {source : Text}
    (hinside : Inside .reference depth source) : (0, '}') ∉ bareCharacters depth source := by
  induction hinside with
  | nil => simp [bareCharacters]
  | openBrace _ ih => simpa [bareCharacters_cons, depthAfter] using ih
  | closeBrace _ ih => simpa [bareCharacters_cons, depthAfter] using ih
  | looseBrace hkind _ _ => exact absurd rfl hkind
  | escape _ _ ih => rwa [bareCharacters_escape]
  | char hopen hclose hescape _ _ ih =>
      simpa [bareCharacters_cons hescape, depthAfter, hopen, hclose, Ne.symm hclose] using ih

/-- Without comments the reader meets a loose brace or no fault at all.  The splitter does
not know of comments, but it takes escapes and counts braces as the reader does. -/
theorem Inside.braceFault? {kind : IslandKind} {depth : Nat} {source : Text}
    (hinside : Inside kind depth source) (hcomment : Commentless depth source) :
    Notation.braceFault? depth source =
      if (0, '}') ∈ bareCharacters depth source then some .extraCloseBrace else none := by
  induction hinside with
  | nil =>
      rw [Notation.braceFault?]
      rfl
  | openBrace _ ih =>
      rw [braceFault?_openBrace, ih (hcomment.of_cons (by decide)).2,
        bareCharacters_cons (by decide)]
      simp [depthAfter]
  | closeBrace _ ih =>
      rw [braceFault?_closeBrace, if_neg (Nat.succ_ne_zero _), bareCharacters_cons (by decide)]
      simp [depthAfter, ih (hcomment.of_cons (by decide)).2]
  | looseBrace _ _ _ =>
      rw [braceFault?_closeBrace, if_pos rfl, bareCharacters_cons (by decide)]
      simp
  | escape _ _ ih =>
      rw [braceFault?_escape, bareCharacters_escape, ih hcomment.of_escape]
  | @char depth rest c hopen hclose hescape _ _ ih =>
      obtain ⟨hpercent, hrest⟩ := hcomment.of_cons hescape
      have hdepth : depthAfter depth c = depth := by simp [depthAfter, hopen, hclose]
      rw [hdepth] at hrest
      rw [braceFault?_char hescape hopen hclose hpercent, ih hrest,
        bareCharacters_cons hescape, hdepth]
      simp [Ne.symm hclose]

/-- What stands between the braces of a reference stays inside any island, because the
braces that it opens are closed again within it. -/
theorem Inside.enclosed {kind : IslandKind} {depth : Nat} {source rest : Text}
    (hinside : Inside .reference depth source) (hrest : Inside kind 0 rest) :
    Inside kind (depth + 1) (source ++ '}' :: rest) := by
  induction hinside with
  | nil => exact .closeBrace hrest
  | openBrace _ ih => exact .openBrace ih
  | closeBrace _ ih => exact .closeBrace ih
  | looseBrace hkind _ _ => exact absurd rfl hkind
  | escape _ _ ih => exact .escape (by simp) ih
  | char hopen hclose hescape _ _ ih => exact .char hopen hclose hescape (by simp) ih

theorem letters_of_referenceName {name : Text}
    (hname : name = "ref".toList ∨ name = "eqref".toList) :
    name ≠ [] ∧ ∀ c ∈ name, c.isAlpha := by
  rw [← List.all_eq_true]
  rcases hname with rfl | rfl <;> decide

/-- The source of a reference with its command and braces is itself the source of an
island. -/
theorem inside_reference {opening source : Text} (hopening : IsReferenceOpening opening)
    (hinside : Inside .reference 0 source) :
    Inside .reference 0 (opening ++ source ++ ['}']) := by
  obtain ⟨name, blanks, hname, hblanks, rfl⟩ := hopening
  obtain ⟨hne, hletters⟩ := letters_of_referenceName hname
  have hbraces := Inside.openBrace (hinside.enclosed (.nil : Inside .reference 0 []))
  have hbehind := inside_of_isInert (isInert_blanks hblanks) hbraces
  simpa using inside_command hne hletters hbehind

theorem Cut.inside {text : Text} {spans : List Span} (hcut : Cut text spans)
    {kind : IslandKind} {opening source : Text} (hspan : .island kind opening source ∈ spans) :
    kind.Opens opening ∧ Inside kind 0 source := by
  induction hcut with
  | nil => simp at hspan
  | plain _ _ _ _ ih =>
      rcases List.mem_cons.mp hspan with hspan | hspan
      · cases hspan
      · exact ih hspan
  | island hopens hinside _ ih =>
      rcases List.mem_cons.mp hspan with hspan | hspan
      · cases hspan
        exact ⟨hopens, hinside⟩
      · exact ih hspan

/-- An island of a text was read between its delimiters.  A reference keeps them, so its
source starts with its command and ends with its brace. -/
theorem island_of_split {text source : Text} {pieces : List Piece} {kind : IslandKind}
    (hsplit : split text = .ok pieces) (hpiece : .island kind source ∈ pieces) :
    ∃ opening inner, kind.Opens opening ∧ Inside kind 0 inner ∧
      source = if kind = .reference then opening ++ inner ++ ['}'] else inner := by
  obtain ⟨spans, hcut, rfl⟩ := exists_cut_of_split hsplit
  obtain ⟨span, hspan, hsource⟩ := List.mem_map.mp hpiece
  cases span with
  | plain run => cases hsource
  | island kind' opening inner =>
      obtain ⟨hopens, hinside⟩ := hcut.inside hspan
      cases kind' <;> cases hsource <;> exact ⟨opening, _, hopens, hinside, rfl⟩

theorem inside_of_split {text source : Text} {pieces : List Piece} {kind : IslandKind}
    (hsplit : split text = .ok pieces) (hpiece : .island kind source ∈ pieces) :
    Inside kind 0 source := by
  obtain ⟨opening, inner, hopens, hinside, rfl⟩ := island_of_split hsplit hpiece
  cases kind with
  | reference => exact inside_reference hopens hinside
  | dollar | parenthesis => exact hinside

/-! ## References -/

/-- The text closes the given number of braces and is balanced before, between and behind
them. -/
def Closes : Nat → Text → Prop
  | 0, text => Balanced text
  | depth + 1, text =>
      ∃ inner rest, text = inner ++ '}' :: rest ∧ Balanced inner ∧ Closes depth rest

theorem Closes.prepend (unit : Text) {depth : Nat} {text : Text} (hcloses : Closes depth text)
    (hunit : ∀ {text : Text}, Balanced text → Balanced (unit ++ text)) :
    Closes depth (unit ++ text) := by
  cases depth with
  | zero => exact hunit hcloses
  | succ depth =>
      obtain ⟨inner, rest, rfl, hinner, hrest⟩ := hcloses
      exact ⟨unit ++ inner, rest, by simp, hunit hinner, hrest⟩

theorem Closes.openBrace {depth : Nat} {text : Text} (hcloses : Closes (depth + 1) text) :
    Closes depth ('{' :: text) := by
  obtain ⟨inner, rest, rfl, hinner, hrest⟩ := hcloses
  have hbraces : ∀ {text : Text}, Balanced text →
      Balanced (('{' :: (inner ++ ['}'])) ++ text) := by
    intro text htext
    simpa using Balanced.braces hinner htext
  simpa using hrest.prepend _ hbraces

/-- The source of a reference closes the braces that are open before it, as long as it holds
no comment to hide one. -/
theorem closes_of_inside {depth before : Nat} {source behind : Text}
    (hinside : Inside .reference depth source)
    (hcomment : Commentless before (source ++ behind)) : Closes depth source := by
  induction hinside generalizing before with
  | nil => exact .nil
  | openBrace _ ih => exact (ih (hcomment.of_cons (by decide)).2).openBrace
  | closeBrace _ ih => exact ⟨[], _, rfl, .nil, ih (hcomment.of_cons (by decide)).2⟩
  | looseBrace hkind _ _ => exact absurd rfl hkind
  | @escape depth source c _ _ ih =>
      exact (ih hcomment.of_escape).prepend ['\\', c] .escape
  | @char depth source c hopen hclose hescape _ _ ih =>
      obtain ⟨hpercent, hrest⟩ := hcomment.of_cons hescape
      exact (ih hrest).prepend [c] (.char hescape hopen hclose hpercent)

theorem Commentless.of_isInert {depth : Nat} {run rest : Text} (hinert : IsInert run)
    (hcomment : Commentless depth (run ++ rest)) : Commentless depth rest := by
  induction run with
  | nil => exact hcomment
  | cons c run ih =>
      obtain ⟨⟨hescape, hopen, hclose, -, -⟩, hrun⟩ := hinert.cons
      have htail := (hcomment.of_cons hescape).2
      rw [depthAfter, if_neg hopen, if_neg hclose] at htail
      exact ih hrun htail

/-- Without comments a reference holds balanced text between its braces.  The command and
the blanks before the open brace hold no brace themselves. -/
theorem balanced_of_reference {name blanks inner : Text}
    (hname : name = "ref".toList ∨ name = "eqref".toList)
    (hblanks : ∀ c ∈ blanks, Text.isBlank c) (hinside : Inside .reference 0 inner)
    (hcomment : Commentless 0 ('\\' :: name ++ (blanks ++ '{' :: (inner ++ ['}'])))) :
    Balanced inner := by
  obtain ⟨hne, hletters⟩ := letters_of_referenceName hname
  have hbehind : Commentless 0 (blanks ++ '{' :: (inner ++ ['}'])) := by
    cases name with
    | nil => exact absurd rfl hne
    | cons c name => exact hcomment.of_escape.of_isInert (isInert_letters hletters).cons.2
  have hbraces := (hbehind.of_isInert (isInert_blanks hblanks)).of_cons (by decide)
  exact closes_of_inside hinside hbraces.2

/-- Blanks are read as trivia if they are followed by something else.  There may be none,
and then there is no item either. -/
theorem exists_nestsAs_blanks {blanks rest : Text} (hblanks : ∀ c ∈ blanks, Text.isBlank c)
    (hrest : rest.head?.all fun c => !Text.isBlank c) :
    ∃ items, NestsAs blanks items rest ∧
      ∀ waiting following, Element.ofItems waiting (items ++ following) =
        Element.ofItems waiting following := by
  by_cases hne : blanks = []
  · subst hne
    exact ⟨[], .nil rest, fun _ _ => rfl⟩
  · exact ⟨[.single (.blanks blanks)], nestsAs_blanks hne hblanks hrest,
      fun waiting following => Element.ofItems_trivia rfl waiting following⟩

theorem ofName?_of_referenceName {name : Text}
    (hname : name = "ref".toList ∨ name = "eqref".toList) :
    TextCommand.ofName? name = none := by
  rcases hname with rfl | rfl <;> decide

/-- A reference is read as its command and one group.  Its name is no text command, so the
group is not taken for the body of a text box. -/
theorem exists_items_of_reference {opening inner : Text} (hopening : IsReferenceOpening opening)
    (hinside : Inside .reference 0 inner) (hcomment : ¬ HasComment (opening ++ inner ++ ['}'])) :
    ∃ name items members, (name = "ref".toList ∨ name = "eqref".toList) ∧
      Item.read (opening ++ inner ++ ['}']) = .ok items ∧
      Element.ofItems none items = [.control name, .group members] := by
  obtain ⟨name, blanks, hname, hblanks, rfl⟩ := hopening
  obtain ⟨hne, hletters⟩ := letters_of_referenceName hname
  have hsource : '\\' :: name ++ blanks ++ ['{'] ++ inner ++ ['}'] =
      '\\' :: name ++ (blanks ++ '{' :: (inner ++ ['}'])) := by simp
  rw [hsource] at hcomment ⊢
  have hbalanced := balanced_of_reference hname hblanks hinside
    (commentless_of_not_hasComment hcomment)
  obtain ⟨members, -, hmembers⟩ := exists_nestsAs_of_balanced hbalanced []
  obtain ⟨trivia, htrivia, hskip⟩ := exists_nestsAs_blanks hblanks
    (rfl : ('{' :: (inner ++ ['}'])).head?.all fun c => !Text.isBlank c)
  have hboundary : (blanks ++ '{' :: (inner ++ ['}'])).head?.all fun c => !c.isAlpha := by
    cases blanks with
    | nil => rfl
    | cons c blanks => simp [isAlpha_eq_false_of_isBlank (hblanks c (List.mem_cons_self ..))]
  have hcommand := nestsAs_controlWord hne hletters hboundary
  have hnests : NestsAs ('\\' :: name ++ (blanks ++ '{' :: (inner ++ ['}'])))
      ([.single (.controlWord name)] ++ (trivia ++ [.group members])) [] := by
    apply NestsAs.append
    · rwa [List.append_nil]
    · exact NestsAs.append (by rwa [List.append_nil]) hmembers.braces
  refine ⟨name, _, Element.ofItems none members, hname, hnests.read, ?_⟩
  rw [List.cons_append, List.nil_append, Element.ofItems_token rfl, hskip, Element.ofItems_group]
  · rfl
  · intro other hother
    cases hother
    exact ofName?_of_referenceName hname

/-- A command and one group fail as the text boxes of the group do, and otherwise they make
a tree of two children. -/
theorem readLevel_of_reference {source name : Text} {items : List Item} {members : List Element}
    {opener : Context → Text → Except TexError (List Node)} {context : Context}
    (hitems : Item.read source = .ok items)
    (helements : Element.ofItems none items = [.control name, .group members])
    (hboxes : ∀ box ∈ Element.allBoxes (Element.ofItems none items),
      ∃ nodes, Element.openBox opener context box = .ok nodes) :
    ∃ children, readLevel opener context source =
      .ok (.group "math" []
        [.group "macro" [("name", .text name)] [], .group "group" [] children]) := by
  have hnodes : ∃ children, Element.toNodes opener context members = .ok children := by
    rw [← failure?_eq_none_iff, Element.failure?_toNodes, List.findSome?_eq_none_iff]
    intro box hbox
    rw [failure?_eq_none_iff]
    apply hboxes
    rw [helements]
    simpa [Element.allBoxes, Element.boxes] using hbox
  obtain ⟨children, hchildren⟩ := hnodes
  refine ⟨children, ?_⟩
  have htree : Element.toNodes opener context [.control name, .group members] =
      .ok [.group "macro" [("name", .text name)] [], .group "group" [] children] := by
    simp only [Element.toNodes, Element.toNode, hchildren]
    rfl
  rw [readLevel, Element.read_of_read_items hitems, helements]
  simp only [Except.mapError, bind, Except.bind, htree]
  rfl

/-- The islands of a text nest.  No island ends in a stray backslash.  Without comments no
brace of an island is left open, and a closing brace is one too many exactly if it is
loose for the splitter.  A reference has no loose brace, so it is accepted at its own
level, and once its text boxes are built its tree has two children: its command and one
group. -/
theorem islands_nest {text source : Text} {pieces : List Piece} {kind : IslandKind}
    (hsplit : split text = .ok pieces) (hpiece : .island kind source ∈ pieces) :
    Item.read source ≠ .error .strayBackslash ∧
    (¬ HasComment source → Item.read source ≠ .error .missingCloseBrace ∧
      (Item.read source = .error .extraCloseBrace ↔ HasLooseBrace source)) ∧
    (kind = .reference → ¬ HasLooseBrace source ∧
      (¬ HasComment source → ∃ name items,
        (name = "ref".toList ∨ name = "eqref".toList) ∧ Item.read source = .ok items ∧
        ∀ context,
          (∀ box ∈ Element.allBoxes (Element.ofItems none items),
            ∃ nodes, Element.openBox (build read none) context box = .ok nodes) →
          ∃ children, read context source =
            .ok (.group "math" []
              [.group "macro" [("name", .text name)] [], .group "group" [] children]))) := by
  have hinside := inside_of_split hsplit hpiece
  have hfault : failure? (Item.read source) = Notation.braceFault? 0 source :=
    failure?_nest [] [] source
  simp only [← failure?_eq_some_iff, ne_eq, hfault]
  refine ⟨braceFault?_ne_strayBackslash hinside.paired 0, ?_, ?_⟩
  · intro hcomment
    rw [hinside.braceFault? (commentless_of_not_hasComment hcomment), HasLooseBrace]
    by_cases hloose : (0, '}') ∈ bareCharacters 0 source
    · simp [hloose]
    · simp [hloose]
  · rintro rfl
    refine ⟨hinside.looseBrace_not_mem, ?_⟩
    obtain ⟨opening, inner, hopening, hinner, rfl⟩ := island_of_split hsplit hpiece
    intro hcomment
    obtain ⟨name, items, members, hname, hitems, helements⟩ :=
      exists_items_of_reference hopening hinner hcomment
    refine ⟨name, items, hname, hitems, ?_⟩
    intro context hboxes
    rw [read_eq_readLevel]
    exact readLevel_of_reference hitems helements hboxes

/-- A reference whose group holds a text box with an island of its own. -/
def nestedReference : Text :=
  "\\eqref\x7ba\\text\x7bb $c$\x7d\x7d".toList

theorem islands_nest_nestedReference :
    split nestedReference = .ok [.island .reference nestedReference] ∧
      ¬ HasComment nestedReference ∧ ¬ HasLooseBrace nestedReference ∧
      ∃ items, Item.read nestedReference = .ok items := by
  have hsplit : split nestedReference = .ok [.island .reference nestedReference] := by
    decide +kernel
  have hcomment : ¬ HasComment nestedReference := by
    rintro ⟨bare, hbare, hpercent⟩
    revert bare
    decide
  obtain ⟨-, -, hreference⟩ := islands_nest hsplit (List.mem_singleton_self _)
  obtain ⟨hloose, hshape⟩ := hreference rfl
  obtain ⟨_, items, _, hitems, _⟩ := hshape hcomment
  exact ⟨hsplit, hcomment, hloose, items, hitems⟩

end TextMode
