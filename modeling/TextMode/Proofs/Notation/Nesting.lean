import Mathlib
import TextMode.Proofs.Content.Balance
import TextMode.Proofs.Notation.Items
import TextMode.Proofs.Notation.Lexing
import TextMode.Proofs.Text.Runs

/-!
# Nesting a part of a text

A part of a text nests as certain items if reading it puts these items behind the
ones that are there already and leaves the rest to be read as it is.  The rest has to
be present, because the last token of the part must not reach into it.
-/

namespace TextMode.Notation

open TextMode.Text (isBlank)

/-- `text` before `rest` is read as `items`, whatever stands before it. -/
def NestsAs (text : Text) (items : List Item) (rest : Text) : Prop :=
  ∀ outer inner, Item.nest outer inner (tokenize (text ++ rest)) =
    Item.nest outer (items.reverse ++ inner) (tokenize rest)

/-- The token is an item of its own: neither a brace nor a stray backslash. -/
def Token.IsSingle : Token → Prop
  | openBrace | closeBrace | strayBackslash => False
  | _ => True

theorem nest_single {token : Token} (hsingle : token.IsSingle) (outer : List (List Item))
    (inner : List Item) (tokens : List Token) :
    Item.nest outer inner (token :: tokens) =
      Item.nest outer (.single token :: inner) tokens := by
  cases token with
  | openBrace | closeBrace | strayBackslash => exact hsingle.elim
  | _ => rfl

namespace NestsAs

theorem nil (rest : Text) : NestsAs [] [] rest :=
  fun _ _ => rfl

theorem append {left right rest : Text} {leftItems rightItems : List Item}
    (hleft : NestsAs left leftItems (right ++ rest)) (hright : NestsAs right rightItems rest) :
    NestsAs (left ++ right) (leftItems ++ rightItems) rest := by
  intro outer inner
  rw [List.append_assoc, hleft, hright, List.reverse_append, List.append_assoc]

/-- A whole text that nests is read as its items, since neither items before it nor a text
behind it are there. -/
theorem read {text : Text} {items : List Item} (hnests : NestsAs text items []) :
    Item.read text = .ok items := by
  have hitems := hnests [] []
  rwa [List.append_nil, List.append_nil, tokenize, Item.nest, List.reverse_reverse] at hitems

theorem braces {text rest : Text} {items : List Item}
    (htext : NestsAs text items ('}' :: rest)) :
    NestsAs ('{' :: (text ++ ['}'])) [.group items] rest := by
  intro outer inner
  have hopen : Token.next '{' (text ++ '}' :: rest) = (.openBrace, text ++ '}' :: rest) := rfl
  have hclose : Token.next '}' rest = (.closeBrace, rest) := rfl
  rw [List.cons_append, List.append_assoc, List.cons_append, List.nil_append, tokenize, hopen,
    Item.nest, htext, tokenize, hclose, Item.nest]
  simp

end NestsAs

/-! ## Tokens before what may follow them -/

/-- A token of the grammar is read as an item, unless it is a brace or stray.  The other
theorems of this section are about its kinds. -/
theorem nestsAs_token (token : Token) {rest : Text} (hwell : token.IsWellFormed)
    (hends : token.EndsBefore rest) (hsingle : token.IsSingle) :
    NestsAs token.lexeme [.single token] rest := by
  intro outer inner
  rw [tokenize_lexeme hwell hends, nest_single hsingle]
  rfl

theorem nestsAs_controlWord {name rest : Text} (hne : name ≠ [])
    (hname : ∀ c ∈ name, c.isAlpha) (hrest : rest.head?.all fun c => !c.isAlpha) :
    NestsAs ('\\' :: name) [.single (.controlWord name)] rest :=
  nestsAs_token (.controlWord name) ⟨hne, hname⟩ hrest trivial

theorem nestsAs_controlSymbol {c : Char} (rest : Text) (hc : c.isAlpha = false) :
    NestsAs ['\\', c] [.single (.controlSymbol c)] rest :=
  nestsAs_token (.controlSymbol c) hc trivial trivial

theorem nestsAs_special {c : Char} (rest : Text) (hc : isSpecial c) :
    NestsAs [c] [.single (.special c)] rest :=
  nestsAs_token (.special c) hc trivial trivial

theorem nestsAs_characters {run rest : Text} (hne : run ≠ [])
    (hrun : ∀ c ∈ run, isOrdinary c) (hrest : rest.head?.all fun c => !isOrdinary c) :
    NestsAs run [.single (.characters run)] rest :=
  nestsAs_token (.characters run) ⟨hne, hrun⟩ hrest trivial

theorem nestsAs_blanks {run rest : Text} (hne : run ≠ []) (hrun : ∀ c ∈ run, isBlank c)
    (hrest : rest.head?.all fun c => !isBlank c) :
    NestsAs run [.single (.blanks run)] rest :=
  nestsAs_token (.blanks run) ⟨hne, hrun⟩ hrest trivial

theorem nestsAs_command {name inner rest : Text} {items : List Item} (hne : name ≠ [])
    (hletters : ∀ c ∈ name, c.isAlpha) (hinner : NestsAs inner items ('}' :: rest)) :
    NestsAs ('\\' :: name ++ '{' :: (inner ++ ['}']))
      [.single (.controlWord name), .group items] rest :=
  (nestsAs_controlWord hne hletters (by simp)).append hinner.braces

theorem isAlpha_eq_false_of_isBlank {c : Char} (hc : isBlank c) : c.isAlpha = false := by
  have hrange : ¬ (65 ≤ c.toNat ∧ c.toNat ≤ 90) ∧ ¬ (97 ≤ c.toNat ∧ c.toNat ≤ 122) := by
    simp only [isBlank, Bool.or_eq_true, Bool.and_eq_true, decide_eq_true_eq, beq_iff_eq] at hc
    omega
  have hvalue : c.toNat = c.val.toNat := rfl
  simp only [Char.isAlpha, Char.isUpper, Char.isLower, UInt32.le_iff_toNat_le, ge_iff_le]
  simp
  omega

/-! ## Balanced texts -/

/-- A token with a run of characters of one class, and what a balanced text has behind it.
The run ends before the closing brace at the latest, which is not in its class. -/
theorem exists_nestsAs_run {accepts : Char → Bool} (lead : Text) (token : Text → Token)
    (hlexeme : ∀ run, (token run).lexeme = lead ++ run)
    (htoken : ∀ {run rest : Text}, run ≠ [] → (∀ c ∈ run, accepts c) →
      (rest.head?.all fun c => !accepts c) →
      NestsAs (lead ++ run) [.single (token run)] rest)
    (hclose : accepts '}' = false) {c : Char} {tail rest : Text} (hc : accepts c)
    (htail : ∃ items, Item.lexemes items = tail.dropWhile accepts ∧
      NestsAs (tail.dropWhile accepts) items ('}' :: rest)) :
    ∃ items, Item.lexemes items = lead ++ c :: tail ∧
      NestsAs (lead ++ c :: tail) items ('}' :: rest) := by
  obtain ⟨items, hitems, hnests⟩ := htail
  have hboundary : (tail.dropWhile accepts ++ '}' :: rest).head?.all fun c => !accepts c := by
    have hhead := head?_dropWhile accepts tail
    cases htail : tail.dropWhile accepts with
    | nil => simp [hclose]
    | cons d behind => rwa [htail] at hhead
  have hsplit : lead ++ c :: tail =
      lead ++ (c :: tail.takeWhile accepts) ++ tail.dropWhile accepts := by
    rw [List.append_assoc, List.cons_append, List.takeWhile_append_dropWhile]
  have hrun : ∀ d ∈ c :: tail.takeWhile accepts, accepts d := by
    intro d hd
    rcases List.mem_cons.mp hd with rfl | hd
    · exact hc
    · exact List.mem_takeWhile_imp hd
  refine ⟨.single (token (c :: tail.takeWhile accepts)) :: items, ?_, ?_⟩
  · rw [hsplit, Item.lexemes, Item.lexeme, hlexeme, hitems]
  · rw [hsplit]
    exact (htoken (by simp) hrun hboundary).append hnests

/-- A balanced text before a closing brace nests as items that spell it.  A token may take a
whole run of characters, so the induction is on the length of the text. -/
theorem exists_nestsAs_of_balanced {text : Text} (hbalanced : Balanced text) (rest : Text) :
    ∃ items, Item.lexemes items = text ∧ NestsAs text items ('}' :: rest) := by
  induction hlength : text.length using Nat.strong_induction_on generalizing text rest with
  | _ length ih =>
    subst hlength
    have hbehind : ∀ (accepts : Char → Bool) (tail : Text), tail.length < text.length →
        Balanced tail → accepts '\\' = false → accepts '{' = false →
        ∃ items, Item.lexemes items = tail.dropWhile accepts ∧
          NestsAs (tail.dropWhile accepts) items ('}' :: rest) := by
      intro accepts tail hlt htail hescape hopen
      have hle := (List.dropWhile_sublist accepts (l := tail)).length_le
      exact ih _ (hle.trans_lt hlt) (htail.dropWhile hescape hopen) rest rfl
    cases hbalanced with
    | nil => exact ⟨[], rfl, .nil _⟩
    | @char c tail hescape hopen hclose hcomment htail =>
        have hlt : tail.length < (c :: tail).length := Nat.lt_succ_self _
        by_cases hspecial : isSpecial c
        · obtain ⟨items, hitems, hnests⟩ := ih _ hlt htail rest rfl
          refine ⟨.single (.special c) :: items, ?_, ?_⟩
          · rw [Item.lexemes, hitems]
            rfl
          · exact (nestsAs_special _ hspecial).append hnests
        by_cases hblank : isBlank c
        · exact exists_nestsAs_run [] .blanks (fun _ => rfl) nestsAs_blanks (by decide) hblank
            (hbehind isBlank tail hlt htail (by decide) (by decide))
        · have hordinary : isOrdinary c := by
            simp [isOrdinary, hescape, hopen, hclose, hcomment, hspecial, hblank]
          exact exists_nestsAs_run [] .characters (fun _ => rfl) nestsAs_characters (by decide)
            hordinary (hbehind isOrdinary tail hlt htail (by decide) (by decide))
    | @escape c tail htail =>
        have hlt : tail.length < ('\\' :: c :: tail).length := by
          simp only [List.length_cons]
          omega
        by_cases hc : c.isAlpha
        · exact exists_nestsAs_run ['\\'] .controlWord (fun _ => rfl)
            nestsAs_controlWord (by decide) hc
            (hbehind Char.isAlpha tail hlt htail (by decide) (by decide))
        · obtain ⟨items, hitems, hnests⟩ := ih _ hlt htail rest rfl
          refine ⟨.single (.controlSymbol c) :: items, ?_, ?_⟩
          · rw [Item.lexemes, hitems]
            rfl
          · exact (nestsAs_controlSymbol _ (by simpa using hc)).append hnests
    | @braces inner tail hinner htail =>
        have hlength : ('{' :: (inner ++ '}' :: tail)).length =
            inner.length + tail.length + 2 := by
          simp only [List.length_cons, List.length_append]
          omega
        obtain ⟨innerItems, hinnerItems, hinnerNests⟩ :=
          ih inner.length (by omega) hinner (tail ++ '}' :: rest) rfl
        obtain ⟨items, hitems, hnests⟩ := ih tail.length (by omega) htail rest rfl
        refine ⟨.group innerItems :: items, ?_, ?_⟩
        · simp [Item.lexemes, Item.lexeme, hinnerItems, hitems]
        · have happend := hinnerNests.braces.append hnests
          simpa using happend

end TextMode.Notation
