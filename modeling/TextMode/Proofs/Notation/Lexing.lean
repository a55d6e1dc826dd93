import Mathlib
import TextMode.Notation.Token
import TextMode.Proofs.Text.Runs

/-!
# The grammar of tokens

The grammar says of each token what it is made of and what may follow it.  A run ends
where its class of characters ends, a comment ends with its line, and only the end of a
text leaves a backslash alone.  Every text is read as one list of tokens.
-/

namespace TextMode.Notation

open TextMode.Text (isBlank)

namespace Token

/-- The token is made of the characters of its class. -/
def IsWellFormed : Token → Prop
  | controlWord name => name ≠ [] ∧ ∀ c ∈ name, c.isAlpha
  | controlSymbol char => char.isAlpha = false
  | special char => isSpecial char
  | characters run => run ≠ [] ∧ ∀ c ∈ run, isOrdinary c
  | blanks run => run ≠ [] ∧ ∀ c ∈ run, isBlank c
  | comment body => ∀ c ∈ body, c ≠ '\n'
  | openBrace | closeBrace | strayBackslash => True

/-- The token does not reach into the text behind it. -/
def EndsBefore (rest : Text) : Token → Prop
  | controlWord _ => rest.head?.all fun c => !c.isAlpha
  | characters _ => rest.head?.all fun c => !isOrdinary c
  | blanks _ => rest.head?.all fun c => !isBlank c
  | comment _ => rest.head?.all fun c => c = '\n'
  | strayBackslash => rest = []
  | controlSymbol _ | special _ | openBrace | closeBrace => True

end Token

/-- A text is read as tokens from the left. -/
inductive Lexes : Text → List Token → Prop where
  | nil : Lexes [] []
  | cons {token : Token} {rest : Text} {tokens : List Token} :
      token.IsWellFormed → token.EndsBefore rest → Lexes rest tokens →
      Lexes (token.lexeme ++ rest) (token :: tokens)

/-! ## Classes of characters -/

theorem not_structural_of_isOrdinary {c : Char} (hc : isOrdinary c) :
    c ≠ '\\' ∧ c ≠ '{' ∧ c ≠ '}' ∧ c ≠ '%' ∧ isSpecial c = false ∧ isBlank c = false := by
  simpa [isOrdinary, and_assoc] using hc

theorem not_structural_of_isBlank {c : Char} (hc : isBlank c) :
    c ≠ '\\' ∧ c ≠ '{' ∧ c ≠ '}' ∧ c ≠ '%' ∧ isSpecial c = false := by
  have hne : ∀ d, isBlank d = false → c ≠ d := fun d => ne_of_accepts hc
  refine ⟨hne _ (by decide), hne _ (by decide), hne _ (by decide), hne _ (by decide), ?_⟩
  simp only [isSpecial, Bool.or_eq_false_iff, decide_eq_false_iff_not]
  refine ⟨⟨⟨⟨⟨?_, ?_⟩, ?_⟩, ?_⟩, ?_⟩, ?_⟩ <;> exact hne _ (by decide)

theorem not_structural_of_isSpecial {c : Char} (hc : isSpecial c) :
    c ≠ '\\' ∧ c ≠ '{' ∧ c ≠ '}' ∧ c ≠ '%' := by
  refine ⟨?_, ?_, ?_, ?_⟩ <;> rintro rfl <;> simp [isSpecial] at hc

/-! ## Single tokens -/

namespace Token

/-- A well-formed token before what may follow it is read as that token.  Its first
character decides which kind is tried, and the class of a run where it ends. -/
theorem next_of_isWellFormed {token : Token} {rest tail : Text} {c : Char}
    (hwell : token.IsWellFormed) (hends : token.EndsBefore rest)
    (hlexeme : token.lexeme ++ rest = c :: tail) : next c tail = (token, rest) := by
  cases token with
  | controlWord name =>
      obtain ⟨rfl, rfl⟩ : '\\' = c ∧ name ++ rest = tail := by simpa [lexeme] using hlexeme
      obtain ⟨hne, hname⟩ := hwell
      obtain ⟨htake, hdrop⟩ := span_run hname hends
      cases name with
      | nil => exact absurd rfl hne
      | cons d name =>
          have hd : d.isAlpha := hname d (List.mem_cons_self ..)
          simp only [next, List.cons_append, if_true, hd]
          rw [← List.cons_append, htake, hdrop]
  | controlSymbol char =>
      obtain ⟨rfl, rfl⟩ : '\\' = c ∧ char :: rest = tail := by simpa [lexeme] using hlexeme
      have hchar : char.isAlpha = false := hwell
      simp [next, hchar]
  | openBrace | closeBrace =>
      obtain ⟨rfl, rfl⟩ := List.cons.inj hlexeme
      rfl
  | special char =>
      obtain ⟨rfl, rfl⟩ := List.cons.inj hlexeme
      have hspecial : isSpecial char := hwell
      simp [next, not_structural_of_isSpecial hspecial, hspecial]
  | characters run =>
      obtain ⟨hne, hrun⟩ := hwell
      cases run with
      | nil => exact absurd rfl hne
      | cons d run =>
          obtain ⟨rfl, rfl⟩ := List.cons.inj hlexeme
          have hd := not_structural_of_isOrdinary (hrun d (List.mem_cons_self ..))
          obtain ⟨htake, hdrop⟩ :=
            span_run (fun e he => hrun e (List.mem_cons_of_mem _ he)) hends
          simp [next, hd, htake, hdrop]
  | blanks run =>
      obtain ⟨hne, hrun⟩ := hwell
      cases run with
      | nil => exact absurd rfl hne
      | cons d run =>
          obtain ⟨rfl, rfl⟩ := List.cons.inj hlexeme
          have hblank := hrun d (List.mem_cons_self ..)
          have hd := not_structural_of_isBlank hblank
          obtain ⟨htake, hdrop⟩ :=
            span_run (fun e he => hrun e (List.mem_cons_of_mem _ he)) hends
          simp [next, hd, hblank, htake, hdrop]
  | comment body =>
      obtain ⟨rfl, rfl⟩ : '%' = c ∧ body ++ rest = tail := by simpa [lexeme] using hlexeme
      have hbody : ∀ c ∈ body, decide (c ≠ '\n') := fun c hc => decide_eq_true (hwell c hc)
      have hline : rest.head?.all fun c => !decide (c ≠ '\n') := by simpa [EndsBefore] using hends
      obtain ⟨htake, hdrop⟩ := span_run hbody hline
      have hnext : next '%' (body ++ rest) = (comment ((body ++ rest).takeWhile (· ≠ '\n')),
          (body ++ rest).dropWhile (· ≠ '\n')) := rfl
      rw [hnext, htake, hdrop]
  | strayBackslash =>
      obtain rfl : rest = [] := hends
      obtain ⟨rfl, rfl⟩ := List.cons.inj hlexeme
      rfl

theorem head?_dropWhile_ne (c : Char) (text : Text) :
    (text.dropWhile (· ≠ c)).head?.all fun d => d = c := by
  simpa using head?_dropWhile (· ≠ c) text

/-- Whatever is read next is a token of the grammar, and the text behind it may follow the
token.  So the reader never stops in the middle of a run. -/
theorem isWellFormed_next (c : Char) (rest : Text) :
    (next c rest).1.IsWellFormed ∧ (next c rest).1.EndsBefore (next c rest).2 := by
  fun_cases next c rest with
  | case1 => exact ⟨trivial, rfl⟩
  | case2 hescape d tail halpha =>
      refine ⟨⟨?_, fun c hc => List.mem_takeWhile_imp hc⟩, head?_dropWhile _ _⟩
      simp [halpha]
  | case3 hescape d tail halpha => exact ⟨by simpa [IsWellFormed] using halpha, trivial⟩
  | case4 | case5 => exact ⟨trivial, trivial⟩
  | case6 =>
      refine ⟨fun c hc => ?_, head?_dropWhile_ne '\n' rest⟩
      simpa using List.mem_takeWhile_imp hc
  | case7 _ _ _ _ _ hspecial => exact ⟨hspecial, trivial⟩
  | case8 _ _ _ _ _ _ hblank =>
      refine ⟨⟨by simp, ?_⟩, head?_dropWhile _ _⟩
      exact List.forall_mem_cons.mpr ⟨hblank, fun c hc => List.mem_takeWhile_imp hc⟩
  | case9 _ hescape hopen hclose hcomment hspecial hblank =>
      have hordinary : isOrdinary c := by
        simp [isOrdinary, hescape, hopen, hclose, hcomment, hspecial, hblank]
      refine ⟨⟨by simp, ?_⟩, head?_dropWhile _ _⟩
      exact List.forall_mem_cons.mpr ⟨hordinary, fun c hc => List.mem_takeWhile_imp hc⟩

end Token

/-! ## Lists of tokens -/

theorem tokenize_lexeme {token : Token} {rest : Text} (hwell : token.IsWellFormed)
    (hends : token.EndsBefore rest) : tokenize (token.lexeme ++ rest) = token :: tokenize rest := by
  cases hlexeme : token.lexeme ++ rest with
  | nil =>
      have hnext : token.lexeme = [] := (List.append_eq_nil_iff.mp hlexeme).1
      cases token <;> simp_all [Token.lexeme, Token.IsWellFormed]
  | cons c tail => rw [tokenize, Token.next_of_isWellFormed hwell hends hlexeme]

theorem lexes_tokenize (text : Text) : Lexes text (tokenize text) := by
  induction text using tokenize.induct with
  | case1 =>
      rw [tokenize]
      exact .nil
  | case2 c rest ih =>
      obtain ⟨hwell, hends⟩ := Token.isWellFormed_next c rest
      rw [tokenize]
      nth_rewrite 1 [← Token.lexeme_next_append c rest]
      exact .cons hwell hends ih

/-- The tokens of the grammar are those that are read.  The grammar says of a text what the
reader computes of it, so it is unambiguous and covers every text. -/
theorem lexes_iff {text : Text} {tokens : List Token} :
    Lexes text tokens ↔ tokenize text = tokens := by
  constructor
  · intro hlexes
    induction hlexes with
    | nil => rw [tokenize]
    | cons hwell hends _ ih => rw [tokenize_lexeme hwell hends, ih]
  · rintro rfl
    exact lexes_tokenize text

theorem Token.EndsBefore.append {token : Token} {rest : Text} (hends : token.EndsBefore rest)
    (hne : rest ≠ []) (right : Text) : token.EndsBefore (rest ++ right) := by
  cases rest with
  | nil => exact absurd rfl hne
  | cons c rest =>
      cases token with
      | strayBackslash => exact absurd hends hne
      | _ => exact hends

namespace Lexes

theorem unique {text : Text} {left right : List Token} (hleft : Lexes text left)
    (hright : Lexes text right) : left = right :=
  (lexes_iff.mp hleft).symm.trans (lexes_iff.mp hright)

/-- The lexemes of the tokens of a text are that text, so the tokens cover it without gaps
and overlaps. -/
theorem flatMap_lexeme {text : Text} {tokens : List Token} (hlexes : Lexes text tokens) :
    tokens.flatMap Token.lexeme = text := by
  rw [← lexes_iff.mp hlexes, flatMap_lexeme_tokenize]

theorem eq_nil {tokens : List Token} (hlexes : Lexes [] tokens) : tokens = [] :=
  hlexes.unique .nil

/-- Only the last token of a text could reach into the text behind it.  If it does not, the
tokens of two texts are those of the whole. -/
theorem append {left right : Text} {leftTokens rightTokens : List Token}
    (hleft : Lexes left leftTokens) (hright : Lexes right rightTokens)
    (hlast : ∀ token ∈ leftTokens.getLast?, token.EndsBefore right) :
    Lexes (left ++ right) (leftTokens ++ rightTokens) := by
  induction hleft with
  | nil => exact hright
  | @cons token rest tokens hwell hends hrest ih =>
      have htail := ih fun last hmem => hlast last (List.mem_getLast?_cons hmem)
      have hends' : token.EndsBefore (rest ++ right) := by
        by_cases hempty : rest = []
        · subst hempty
          obtain rfl := hrest.eq_nil
          exact hlast token rfl
        · exact hends.append hempty right
      rw [List.append_assoc, List.cons_append]
      exact .cons hwell hends' htail

end Lexes

end TextMode.Notation
