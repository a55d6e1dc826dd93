import Mathlib
import TextMode.Expansion.Join
import TextMode.Proofs.Text.Runs

/-!
# Tokens of a text

Whoever reads an expansion takes tokens from its left end.  What may be added at the
right end without changing a token shows in the last characters of a text: backslashes
of odd number take the next character, and letters behind such backslashes take the
next letter.
-/

namespace TextMode.Expansion

inductive Token where
  | controlWord (name : Text)
  | controlSymbol (char : Char)
  | strayBackslash
  | character (char : Char)
  deriving DecidableEq, Repr

def texTokens : Text → List Token
  | [] => []
  | ['\\'] => [.strayBackslash]
  | '\\' :: c :: rest =>
      if c.isAlpha then
        .controlWord (c :: rest.takeWhile Char.isAlpha) :: texTokens (rest.dropWhile Char.isAlpha)
      else .controlSymbol c :: texTokens rest
  | c :: rest => .character c :: texTokens rest
termination_by text => text.length
decreasing_by
  · have hle := (List.dropWhile_sublist Char.isAlpha (l := rest)).length_le
    simp only [List.length_cons]
    omega
  · simp only [List.length_cons]
    omega
  · simp only [List.length_cons]
    omega

/-- A control word at the start of a text is one token up to the first character that is no
letter. -/
theorem texTokens_controlWord {name rest : Text} (hne : name ≠ [])
    (hname : ∀ c ∈ name, c.isAlpha) (hrest : rest.head?.all fun c => !c.isAlpha) :
    texTokens ('\\' :: name ++ rest) = .controlWord name :: texTokens rest := by
  cases name with
  | nil => exact absurd rfl hne
  | cons c name =>
      have hc : c.isAlpha := hname c (List.mem_cons_self ..)
      obtain ⟨htake, hdrop⟩ :=
        span_run (fun d hd => hname d (List.mem_cons_of_mem c hd)) hrest
      rw [List.cons_append, List.cons_append, texTokens, if_pos hc, htake, hdrop]

/-- The control word at the start of a text, and the text behind it. -/
theorem controlWord_parts {c : Char} (hc : c.isAlpha) (rest : Text) :
    '\\' :: c :: rest =
        '\\' :: c :: rest.takeWhile Char.isAlpha ++ rest.dropWhile Char.isAlpha ∧
      ∀ d ∈ c :: rest.takeWhile Char.isAlpha, d.isAlpha := by
  constructor
  · rw [List.cons_append, List.cons_append, List.takeWhile_append_dropWhile]
  · exact List.forall_mem_cons.mpr ⟨hc, fun _ => List.mem_takeWhile_imp⟩

/-! ## Ends of texts -/

/-- Whether the backslashes that a text ends in are odd in number. -/
def endsInOddBackslashes (s : Text) : Bool :=
  (s.reverse.takeWhile (· = '\\')).length % 2 = 1

/-- A backslash makes an odd run of an even one and an even run of an odd one, and any other
character ends the run. -/
theorem endsInOddBackslashes_concat (s : Text) (c : Char) :
    endsInOddBackslashes (s ++ [c]) = (c = '\\' && !endsInOddBackslashes s) := by
  rw [endsInOddBackslashes, endsInOddBackslashes, List.reverse_append, List.reverse_singleton,
    List.singleton_append, List.takeWhile_cons]
  by_cases hc : c = '\\'
  · simp only [hc, decide_true, if_true, List.length_cons, Bool.true_and]
    rw [← decide_not, decide_eq_decide]
    omega
  · simp [hc]

/-- A text ends in a control word if a letter follows a control word or a backslash that
is not escaped.  The letters go on to the left of the last one, or the backslashes start
there. -/
theorem endsInControlWord_concat (s : Text) (c : Char) :
    endsInControlWord (s ++ [c]) =
      (c.isAlpha && (endsInControlWord s || endsInOddBackslashes s)) := by
  rw [endsInControlWord, endsInControlWord, endsInOddBackslashes, List.reverse_append,
    List.reverse_singleton, List.singleton_append]
  simp only [List.head?_cons, Option.any_some, List.dropWhile_cons]
  by_cases hc : c.isAlpha
  · simp only [hc, if_true, Bool.true_and]
    cases s.reverse with
    | nil => rfl
    | cons d before =>
        by_cases hd : d.isAlpha
        · have hbackslash : d ≠ '\\' := ne_of_accepts hd rfl
          simp [hd, hbackslash]
        · simp [hd]
  · simp [hc]

theorem endsInOddBackslashes_escape (c : Char) : endsInOddBackslashes ['\\', c] = false :=
  (endsInOddBackslashes_concat ['\\'] c).trans (Bool.and_false _)

theorem endsInOddBackslashes_append {left : Text} (heven : endsInOddBackslashes left = false)
    (right : Text) : endsInOddBackslashes (left ++ right) = endsInOddBackslashes right := by
  induction right using List.reverseRecOn with
  | nil => rwa [List.append_nil]
  | append_singleton right c ih =>
      rw [← List.append_assoc, endsInOddBackslashes_concat, endsInOddBackslashes_concat, ih]

/-- No token of the left text changes if the right text follows. -/
structure Apart (left right : Text) : Prop where
  even : endsInOddBackslashes left = false
  boundary : endsInControlWord left → right.head?.all fun c => !c.isAlpha

namespace Apart

variable {left right : Text}

/-- A text that does not end in a control word is apart from everything. -/
theorem of_ends (heven : endsInOddBackslashes left = false)
    (hword : endsInControlWord left = false) (right : Text) : Apart left right := by
  refine ⟨heven, fun hends => ?_⟩
  rw [hword] at hends
  exact absurd hends Bool.false_ne_true

/-- What is appended decides alone whether the whole ends in a control word, if the two
texts are apart. -/
theorem endsInControlWord_append (hapart : Apart left right) (hne : right ≠ []) :
    endsInControlWord (left ++ right) = endsInControlWord right := by
  induction right using List.reverseRecOn with
  | nil => exact absurd rfl hne
  | append_singleton right c ih =>
      rw [← List.append_assoc, endsInControlWord_concat, endsInControlWord_concat,
        endsInOddBackslashes_append hapart.even]
      cases right with
      | nil =>
          rw [List.append_nil]
          cases hword : endsInControlWord left with
          | false => rfl
          | true =>
              have hc : c.isAlpha = false := by simpa using hapart.boundary hword
              rw [hc, Bool.false_and, Bool.false_and]
      | cons d right => rw [ih ⟨hapart.even, hapart.boundary⟩ (by simp)]

/-- What starts in a later part of the left text is apart from the right text, too. -/
theorem of_append {first rest : Text} (hrest : Apart first rest)
    (hapart : Apart (first ++ rest) right) : Apart rest right := by
  constructor
  · rw [← endsInOddBackslashes_append hrest.even]
    exact hapart.even
  · intro hword
    apply hapart.boundary
    cases rest with
    | nil => exact absurd hword Bool.false_ne_true
    | cons c rest => rwa [endsInControlWord_append hrest (by simp)]

end Apart

theorem endsIn_controlWord {name : Text} (hne : name ≠ []) (hname : ∀ c ∈ name, c.isAlpha) :
    endsInOddBackslashes ('\\' :: name) = false ∧ endsInControlWord ('\\' :: name) := by
  induction name using List.reverseRecOn with
  | nil => exact absurd rfl hne
  | append_singleton name c ih =>
      have hc : c.isAlpha := hname c (by simp)
      have hbackslash : c ≠ '\\' := ne_of_accepts hc rfl
      rw [← List.cons_append, endsInOddBackslashes_concat, endsInControlWord_concat]
      cases name with
      | nil => simp [hbackslash, hc, endsInOddBackslashes]
      | cons d name =>
          have hbefore := ih (by simp) fun e he => hname e (List.mem_append_left _ he)
          simp [hbackslash, hc, hbefore.2]

/-! ## Tokens at the left end -/

namespace Apart

/-- A control word is apart from what does not start with a letter. -/
theorem controlWord {name rest : Text} (hne : name ≠ []) (hname : ∀ c ∈ name, c.isAlpha)
    (hrest : rest.head?.all fun c => !c.isAlpha) : Apart ('\\' :: name) rest :=
  ⟨(endsIn_controlWord hne hname).1, fun _ => hrest⟩

theorem controlSymbol {c : Char} (hc : c.isAlpha = false) (rest : Text) :
    Apart ['\\', c] rest := by
  apply of_ends (endsInOddBackslashes_escape c)
  exact (endsInControlWord_concat ['\\'] c).trans (by rw [hc, Bool.false_and])

theorem character {c : Char} (hc : c ≠ '\\') (rest : Text) : Apart [c] rest := by
  apply of_ends
  · exact (endsInOddBackslashes_concat [] c).trans (by simp [hc])
  · exact (endsInControlWord_concat [] c).trans (Bool.and_false _)

end Apart

/-- Texts that are apart are read one after the other.  The induction is on the left text,
token by token. -/
theorem texTokens_append {left right : Text} (hapart : Apart left right) :
    texTokens (left ++ right) = texTokens left ++ texTokens right := by
  fun_induction texTokens left with
  | case1 => rfl
  | case2 => exact absurd hapart.even (by decide)
  | case3 c rest hc ih =>
      obtain ⟨hsplit, hletters⟩ := controlWord_parts hc rest
      have hboundary := head?_dropWhile Char.isAlpha rest
      have hword := Apart.controlWord (by simp) hletters hboundary
      rw [hsplit] at hapart ⊢
      have hbehind : (rest.dropWhile Char.isAlpha ++ right).head?.all fun d => !d.isAlpha := by
        cases htail : rest.dropWhile Char.isAlpha with
        | nil =>
            rw [htail, List.append_nil] at hapart
            exact hapart.boundary (endsIn_controlWord (by simp) hletters).2
        | cons d tail => rwa [htail] at hboundary
      rw [List.append_assoc, texTokens_controlWord (by simp) hletters hbehind,
        ih (hword.of_append hapart)]
      rfl
  | case4 c rest hc ih =>
      have hsymbol := Apart.controlSymbol (by simpa using hc) rest
      rw [List.cons_append, List.cons_append, texTokens, if_neg hc, ih (hsymbol.of_append hapart)]
      rfl
  | case5 c rest hstray hescape ih =>
      have hc : c ≠ '\\' := ne_of_neither_last_nor_followed hstray hescape
      have hcharacter := Apart.character hc rest
      rw [List.cons_append, texTokens, ih (hcharacter.of_append hapart)]
      · rfl
      · simp [hc]
      · simp [hc]

end TextMode.Expansion
