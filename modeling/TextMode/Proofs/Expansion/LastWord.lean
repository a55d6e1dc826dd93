import Mathlib
import TextMode.Proofs.Expansion.Tokens

/-!
# The last word of a text

Whether a text ends in a control word can be seen from either side.  From the left the last
token tells.  From the right it takes the letters at the end and the backslashes before them,
which must be odd in number.  A pattern that is tried at every place of the text finds the same:
backslashes are paired behind the start of the text or behind another character, so never from
inside their run.
-/

namespace TextMode.Expansion

open Computability

/-! ## Runs of backslashes -/

/-- Every text ends in a run of backslashes, which may be empty. -/
theorem exists_backslashRun (text : Text) :
    ∃ before count, text = before ++ List.replicate count '\\' ∧ before.getLast? ≠ some '\\' := by
  induction text using List.reverseRecOn with
  | nil => exact ⟨[], 0, rfl, by simp⟩
  | append_singleton text c ih =>
      by_cases hc : c = '\\'
      · obtain ⟨before, count, htext, hbefore⟩ := ih
        refine ⟨before, count + 1, ?_, hbefore⟩
        rw [htext, hc, List.replicate_succ', List.append_assoc]
      · exact ⟨text ++ [c], 0, (List.append_nil _).symm, by simpa using hc⟩

/-- A run of backslashes ends in an odd one exactly if their number is odd, because each
pair is an escaped backslash. -/
theorem endsInOddBackslashes_replicate {before : Text} (hbefore : before.getLast? ≠ some '\\')
    (count : ℕ) :
    endsInOddBackslashes (before ++ List.replicate count '\\') = decide (Odd count) := by
  induction count with
  | zero =>
      rw [List.replicate_zero, List.append_nil]
      cases before using List.reverseRecOn with
      | nil => rfl
      | append_singleton before c =>
          have hc : c ≠ '\\' := by simpa using hbefore
          simp [endsInOddBackslashes_concat, hc]
  | succ count ih =>
      rw [List.replicate_succ', ← List.append_assoc, endsInOddBackslashes_concat, ih]
      simp [Nat.odd_add_one, -Nat.not_odd_iff_even]

/-! ## The last word -/

/-- The text ends in a name behind a backslash that is not escaped. -/
structure EndsInWord (text first name : Text) : Prop where
  eq : text = first ++ '\\' :: name
  even : endsInOddBackslashes first = false
  name_ne_nil : name ≠ []
  letters : ∀ c ∈ name, c.isAlpha

namespace EndsInWord

variable {text first name : Text}

theorem apart (hword : EndsInWord text first name) : Apart first ('\\' :: name) :=
  ⟨hword.even, fun _ => rfl⟩

theorem endsInControlWord (hword : EndsInWord text first name) : endsInControlWord text := by
  rw [hword.eq, hword.apart.endsInControlWord_append (by simp)]
  exact (endsIn_controlWord hword.name_ne_nil hword.letters).2

/-- The word is one token, and stands behind those of the text before it.  The backslash is
not escaped, so it starts a token. -/
theorem texTokens_eq (hword : EndsInWord text first name) :
    texTokens text = texTokens first ++ [.controlWord name] := by
  have hlast := @texTokens_controlWord name [] hword.name_ne_nil hword.letters rfl
  rw [List.append_nil, texTokens] at hlast
  rw [hword.eq, texTokens_append hword.apart, hlast]

/-- More text may stand before the word if no token of it reaches into the word. -/
theorem append {left : Text} (hapart : Apart left text) (hword : EndsInWord text first name) :
    EndsInWord (left ++ text) (left ++ first) name where
  eq := by rw [hword.eq, List.append_assoc]
  even := by rw [endsInOddBackslashes_append hapart.even, hword.even]
  name_ne_nil := hword.name_ne_nil
  letters := hword.letters

/-- A name takes in the next letter. -/
theorem concat {c : Char} (hc : c.isAlpha) (hword : EndsInWord text first name) :
    EndsInWord (text ++ [c]) first (name ++ [c]) where
  eq := by rw [hword.eq, List.append_assoc, List.cons_append]
  even := hword.even
  name_ne_nil := List.append_ne_nil_of_left_ne_nil hword.name_ne_nil _
  letters := List.forall_mem_append.mpr ⟨hword.letters, List.forall_mem_singleton.mpr hc⟩

end EndsInWord

/-- The last letter belongs to a longer name, or is a name and stands behind its backslash.

The induction takes letters off from the right.  The run of backslashes is met once all
letters are gone. -/
theorem endsInControlWord_iff {text : Text} :
    endsInControlWord text ↔ ∃ name first, EndsInWord text first name := by
  constructor
  · intro hends
    induction text using List.reverseRecOn with
    | nil => exact absurd hends Bool.false_ne_true
    | append_singleton text c ih =>
        rw [endsInControlWord_concat, Bool.and_eq_true, Bool.or_eq_true] at hends
        obtain ⟨hc, hword | hodd⟩ := hends
        · obtain ⟨name, first, hword⟩ := ih hword
          exact ⟨name ++ [c], first, hword.concat hc⟩
        · cases text using List.reverseRecOn with
          | nil => exact absurd hodd Bool.false_ne_true
          | append_singleton first d =>
              rw [endsInOddBackslashes_concat, Bool.and_eq_true, decide_eq_true_eq] at hodd
              refine ⟨[c], first, ?_, by simpa using hodd.2, by simp, by simpa using hc⟩
              rw [hodd.1, List.append_assoc]
              rfl
  · rintro ⟨name, first, hword⟩
    exact hword.endsInControlWord

theorem texTokens_ne_nil {text : Text} (htext : text ≠ []) : texTokens text ≠ [] := by
  fun_cases texTokens text with
  | case1 => exact absurd rfl htext
  | case2 | case3 | case4 | case5 => simp

/-- A token is the last one only if no text is left behind it. -/
theorem getLast?_cons_texTokens {token last : Token} {rest : Text}
    (hlast : (token :: texTokens rest).getLast? = some last) :
    rest = [] ∧ token = last ∨ (texTokens rest).getLast? = some last := by
  by_cases hrest : rest = []
  · rw [hrest, texTokens, List.getLast?_singleton] at hlast
    exact .inl ⟨hrest, Option.some.inj hlast⟩
  · rw [List.getLast?_cons_of_ne_nil (texTokens_ne_nil hrest)] at hlast
    exact .inr hlast

/-- A control word that is the last token stands at the end of the text.

The induction is on the tokens from the left.  The first token is apart from the rest, so a
last word of the rest is one of the whole text. -/
theorem exists_endsInWord_of_getLast? {text name : Text}
    (hlast : (texTokens text).getLast? = some (.controlWord name)) :
    ∃ first, EndsInWord text first name := by
  fun_induction texTokens text with
  | case1 | case2 => simp at hlast
  | case3 c rest hc ih =>
      obtain ⟨hsplit, hletters⟩ := controlWord_parts hc rest
      rw [hsplit]
      rcases getLast?_cons_texTokens hlast with ⟨hrest, hname⟩ | hlast
      · obtain rfl := Token.controlWord.inj hname
        rw [hrest, List.append_nil]
        exact ⟨[], rfl, rfl, by simp, hletters⟩
      · obtain ⟨first, hword⟩ := ih hlast
        have hapart := Apart.controlWord (by simp) hletters (head?_dropWhile Char.isAlpha rest)
        exact ⟨_, hword.append hapart⟩
  | case4 c rest hc ih =>
      rcases getLast?_cons_texTokens hlast with ⟨-, hname⟩ | hlast
      · cases hname
      · obtain ⟨first, hword⟩ := ih hlast
        exact ⟨_, hword.append (Apart.controlSymbol (by simpa using hc) rest)⟩
  | case5 c rest hstray hescape ih =>
      rcases getLast?_cons_texTokens hlast with ⟨-, hname⟩ | hlast
      · cases hname
      · obtain ⟨first, hword⟩ := ih hlast
        have hc : c ≠ '\\' := ne_of_neither_last_nor_followed hstray hescape
        exact ⟨_, hword.append (Apart.character hc rest)⟩

/-- The last token is a control word exactly if the text ends in that word. -/
theorem getLast?_texTokens_iff {text name : Text} :
    (texTokens text).getLast? = some (.controlWord name) ↔ ∃ first, EndsInWord text first name := by
  constructor
  · exact exists_endsInWord_of_getLast?
  · rintro ⟨first, hword⟩
    rw [hword.texTokens_eq, List.getLast?_concat]

/-! ## Runs before a name -/

/-- The text ends in a name behind a number of backslashes, and no other one stands before
them. -/
structure EndsInRun (text before : Text) (count : ℕ) (name : Text) : Prop where
  eq : text = before ++ List.replicate count '\\' ++ name
  maximal : before.getLast? ≠ some '\\'
  name_ne_nil : name ≠ []
  letters : ∀ c ∈ name, c.isAlpha

/-- The last backslash of a run is not escaped if and only if their number is odd. -/
theorem exists_endsInWord_iff_odd {text name : Text} :
    (∃ first, EndsInWord text first name) ↔
      ∃ before count, Odd count ∧ EndsInRun text before count name := by
  constructor
  · rintro ⟨first, htext, heven, hname, hletters⟩
    obtain ⟨before, count, rfl, hmaximal⟩ := exists_backslashRun first
    rw [endsInOddBackslashes_replicate hmaximal, decide_eq_false_iff_not] at heven
    refine ⟨before, count + 1, Nat.odd_add_one.mpr heven, ?_, hmaximal, hname, hletters⟩
    rw [htext, List.replicate_succ']
    simp
  · rintro ⟨before, count, hodd, htext, hmaximal, hname, hletters⟩
    obtain ⟨pairs, rfl⟩ := hodd
    refine ⟨before ++ List.replicate (2 * pairs) '\\', ?_, ?_, hname, hletters⟩
    · rw [htext, List.replicate_succ']
      simp
    · rw [endsInOddBackslashes_replicate hmaximal]
      simp

/-! ## The pattern -/

/-- Texts of one character of a class. -/
def oneOf (accepts : Char → Bool) : Language Char :=
  {text | ∃ c, accepts c ∧ text = [c]}

/-- Backslashes in pairs, one more, and letters. -/
def wordPattern : Language Char :=
  {['\\', '\\']}∗ * {['\\']} * (oneOf Char.isAlpha * (oneOf Char.isAlpha)∗)

/-- The pattern fits the end of the text, and begins at its start or behind a character that is
no backslash. -/
inductive FindsWord : Text → Prop
  | atStart {rest : Text} (hrest : rest ∈ wordPattern) : FindsWord rest
  | behind {before rest : Text} {c : Char} (hc : c ≠ '\\') (hrest : rest ∈ wordPattern) :
      FindsWord (before ++ c :: rest)

theorem mem_kstar_oneOf {accepts : Char → Bool} {text : Text} :
    text ∈ (oneOf accepts)∗ ↔ ∀ c ∈ text, accepts c := by
  rw [Language.mem_kstar]
  constructor
  · rintro ⟨parts, rfl, hparts⟩ c hc
    obtain ⟨part, hpart, hc⟩ := List.mem_flatten.mp hc
    obtain ⟨d, hd, rfl⟩ := hparts part hpart
    rwa [List.mem_singleton.mp hc]
  · intro htext
    refine ⟨text.map fun c => [c], ?_, ?_⟩
    · rw [← List.flatMap_def, List.flatMap_singleton']
    · intro part hpart
      obtain ⟨c, hc, rfl⟩ := List.mem_map.mp hpart
      exact ⟨c, htext c hc, rfl⟩

/-- An even number of backslashes is a sequence of pairs, and there is nothing else among
such sequences. -/
theorem mem_kstar_pair {text : Text} :
    text ∈ ({['\\', '\\']} : Language Char)∗ ↔
      ∃ pairs, text = List.replicate (2 * pairs) '\\' := by
  rw [Language.mem_kstar]
  constructor
  · rintro ⟨parts, rfl, hparts⟩
    refine ⟨parts.length, ?_⟩
    rw [List.eq_replicate_of_mem hparts, List.length_replicate, mul_comm]
    exact List.flatten_replicate_replicate (m := 2)
  · rintro ⟨pairs, rfl⟩
    refine ⟨List.replicate pairs ['\\', '\\'], ?_, fun part => List.eq_of_mem_replicate⟩
    rw [mul_comm]
    exact (List.flatten_replicate_replicate (m := 2)).symm

/-- The pattern fits an odd number of backslashes with letters behind them, one letter at
least. -/
theorem mem_wordPattern_iff {text : Text} :
    text ∈ wordPattern ↔ ∃ count name, Odd count ∧ text = List.replicate count '\\' ++ name ∧
      name ≠ [] ∧ ∀ c ∈ name, c.isAlpha := by
  constructor
  · intro htext
    obtain ⟨run, hrun, name, hname, rfl⟩ := Language.mem_mul.mp htext
    obtain ⟨even, heven, last, rfl, rfl⟩ := Language.mem_mul.mp hrun
    obtain ⟨pairs, rfl⟩ := mem_kstar_pair.mp heven
    obtain ⟨_, ⟨c, hc, rfl⟩, letters, hletters, rfl⟩ := Language.mem_mul.mp hname
    refine ⟨2 * pairs + 1, c :: letters, odd_two_mul_add_one pairs, ?_, by simp, ?_⟩
    · rw [List.replicate_succ']
      rfl
    · exact List.forall_mem_cons.mpr ⟨hc, mem_kstar_oneOf.mp hletters⟩
  · rintro ⟨_, name, ⟨pairs, rfl⟩, rfl, hne, hname⟩
    obtain ⟨c, letters, rfl⟩ := List.exists_cons_of_ne_nil hne
    obtain ⟨hc, hletters⟩ := List.forall_mem_cons.mp hname
    rw [List.replicate_succ']
    apply Language.append_mem_mul
    · exact Language.append_mem_mul (mem_kstar_pair.mpr ⟨pairs, rfl⟩) rfl
    · exact Language.append_mem_mul (a := [c]) ⟨c, hc, rfl⟩ (mem_kstar_oneOf.mpr hletters)

/-- The pattern fits from every place that is not inside a run of backslashes.  A search
that started inside one would count the run wrongly. -/
theorem findsWord_iff_exists_rest {text : Text} :
    FindsWord text ↔ ∃ before rest, text = before ++ rest ∧ before.getLast? ≠ some '\\' ∧
      rest ∈ wordPattern := by
  constructor
  · rintro (hrest | ⟨hc, hrest⟩)
    · exact ⟨[], _, rfl, by simp, hrest⟩
    · refine ⟨_ ++ [_], _, (List.append_cons ..), ?_, hrest⟩
      rw [List.getLast?_concat]
      simpa using hc
  · rintro ⟨before, rest, rfl, hbefore, hrest⟩
    cases before using List.reverseRecOn with
    | nil => exact .atStart hrest
    | append_singleton before c =>
        rw [List.append_assoc]
        exact .behind (by simpa using hbefore) hrest

/-- The pattern is found exactly if the letters at the end stand behind all backslashes of a
run, and these are odd in number. -/
theorem findsWord_iff {text : Text} :
    FindsWord text ↔ ∃ name before count, Odd count ∧ EndsInRun text before count name := by
  rw [findsWord_iff_exists_rest]
  constructor
  · rintro ⟨before, rest, rfl, hbefore, hrest⟩
    obtain ⟨count, name, hodd, rfl, hname, hletters⟩ := mem_wordPattern_iff.mp hrest
    exact ⟨name, before, count, hodd, (List.append_assoc ..).symm, hbefore, hname, hletters⟩
  · rintro ⟨name, before, count, hodd, rfl, hbefore, hname, hletters⟩
    refine ⟨before, _, List.append_assoc .., hbefore, ?_⟩
    exact mem_wordPattern_iff.mpr ⟨count, name, hodd, rfl, hname, hletters⟩

/-- A search from the right and the tokens from the left agree on the end of a text.

The pattern is found if and only if the last token is a control word, and then its name stands
behind all backslashes of a run, which are odd in number. -/
theorem last_word_found_from_right (text : Text) :
    (FindsWord text ↔ ∃ name, (texTokens text).getLast? = some (.controlWord name)) ∧
    (∀ name, (texTokens text).getLast? = some (.controlWord name) ↔
      ∃ before count, Odd count ∧ EndsInRun text before count name) ∧
    (endsInControlWord text ↔ FindsWord text) := by
  have hname : ∀ name, (texTokens text).getLast? = some (.controlWord name) ↔
      ∃ before count, Odd count ∧ EndsInRun text before count name := fun name =>
    getLast?_texTokens_iff.trans exists_endsInWord_iff_odd
  refine ⟨?_, hname, ?_⟩
  · rw [findsWord_iff]
    exact exists_congr fun name => (hname name).symm
  · rw [endsInControlWord_iff, findsWord_iff]
    exact exists_congr fun name => exists_endsInWord_iff_odd

end TextMode.Expansion
