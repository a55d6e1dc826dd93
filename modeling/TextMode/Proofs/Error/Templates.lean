import Mathlib
import TextMode.Error

/-!
# Messages are filled in one pass

A template is cut from the left into placeholders and single characters.  The cut does not
depend on the parameters, and the message is made of it part by part.
-/

namespace TextMode

/-! ## Decimal digits -/

/-- A decimal digit of some script and its value, counted from the zero of the script. -/
def Text.IsDecimalDigit (digit : Char) (value : Nat) : Prop :=
  ∃ first ∈ Text.decimalZeros, value < 10 ∧ digit.toNat = first + value

/-- No two scripts share a digit.  Their zeros are ten characters apart from one another at
least. -/
theorem Text.decimalZeros_apart :
    ∀ first ∈ Text.decimalZeros, ∀ other ∈ Text.decimalZeros,
      first = other ∨ first + 10 ≤ other ∨ other + 10 ≤ first := by
  decide +kernel

/-- A digit is recognised by the zero of its script, from which its value is counted. -/
theorem Text.decimalDigit?_eq_some_iff {digit : Char} {value : Nat} :
    Text.decimalDigit? digit = some value ↔ Text.IsDecimalDigit digit value := by
  simp only [Text.decimalDigit?, Option.map_eq_some_iff]
  constructor
  · rintro ⟨first, hfind, rfl⟩
    have hin : first ≤ digit.toNat ∧ digit.toNat < first + 10 := by
      simpa using List.find?_some hfind
    exact ⟨first, List.mem_of_find?_eq_some hfind, by omega, by omega⟩
  · rintro ⟨first, hfirst, hvalue, hdigit⟩
    have hsome : (Text.decimalZeros.find? fun first =>
        first ≤ digit.toNat && digit.toNat < first + 10).isSome :=
      List.find?_isSome.mpr ⟨first, hfirst, by simp [hdigit, hvalue]⟩
    obtain ⟨found, hfind⟩ := Option.isSome_iff_exists.mp hsome
    have hin : found ≤ digit.toNat ∧ digit.toNat < found + 10 := by
      simpa using List.find?_some hfind
    have hapart := Text.decimalZeros_apart found (List.mem_of_find?_eq_some hfind) first hfirst
    exact ⟨found, hfind, by omega⟩

/-! ## Templates -/

/-- A part of a template: `%` with a digit of some value, or one character. -/
inductive TemplatePart where
  | placeholder (digit : Char) (value : Nat)
  | character (c : Char)
  deriving DecidableEq, Repr

namespace TemplatePart

def written : TemplatePart → Text
  | placeholder digit _ => ['%', digit]
  | character c => [c]

/-- What stands in a message for the part.  Parameters are counted from one, and a
placeholder without a parameter stays as it is written. -/
def shown (params : List Text) : TemplatePart → Text
  | placeholder digit value =>
      if hvalue : 1 ≤ value ∧ value ≤ params.length then params[value - 1] else ['%', digit]
  | character c => [c]

end TemplatePart

def StartsPlaceholder (text : Text) : Prop :=
  ∃ digit value rest, Text.IsDecimalDigit digit value ∧ text = '%' :: digit :: rest

/-- Cuts a template from the left into placeholders and, elsewhere, single characters. -/
inductive TemplateCut : Text → List TemplatePart → Prop where
  | nil : TemplateCut [] []
  | placeholder {digit : Char} {value : Nat} {rest : Text} {parts : List TemplatePart} :
      Text.IsDecimalDigit digit value → TemplateCut rest parts →
      TemplateCut ('%' :: digit :: rest) (.placeholder digit value :: parts)
  | character {c : Char} {rest : Text} {parts : List TemplatePart} :
      ¬ StartsPlaceholder (c :: rest) → TemplateCut rest parts →
      TemplateCut (c :: rest) (.character c :: parts)

theorem startsPlaceholder_iff {digit : Char} {rest : Text} :
    StartsPlaceholder ('%' :: digit :: rest) ↔ ∃ value, Text.IsDecimalDigit digit value := by
  constructor
  · rintro ⟨digit', value, rest', hdigit, heq⟩
    obtain ⟨rfl, rfl⟩ : digit = digit' ∧ rest = rest' := by simpa using heq
    exact ⟨value, hdigit⟩
  · rintro ⟨value, hdigit⟩
    exact ⟨digit, value, rest, hdigit, rfl⟩

/-- A digit has one value.  Were it a digit of two scripts, their zeros would be less than
ten characters apart. -/
theorem Text.IsDecimalDigit.unique {digit : Char} {value other : Nat}
    (hvalue : Text.IsDecimalDigit digit value) (hother : Text.IsDecimalDigit digit other) :
    value = other := by
  rw [← Text.decimalDigit?_eq_some_iff] at hvalue hother
  exact Option.some.inj (hvalue.symm.trans hother)

/-- A placeholder is replaced by the parameter of its number, and filling goes on behind
it.  What was put in is not looked at again. -/
theorem fillTemplate_placeholder {digit : Char} {value : Nat}
    (hdigit : Text.IsDecimalDigit digit value) (params : List Text) (rest : Text) :
    fillTemplate params ('%' :: digit :: rest) =
      (TemplatePart.placeholder digit value).shown params ++ fillTemplate params rest := by
  have hread := Text.decimalDigit?_eq_some_iff.mpr hdigit
  cases value with
  | zero => simp [fillTemplate, hread, TemplatePart.shown]
  | succ k =>
      have hshown : (TemplatePart.placeholder digit (k + 1)).shown params =
          (params[k]?).getD ['%', digit] := by
        by_cases hk : k < params.length
        · simp [TemplatePart.shown, hk, Nat.succ_le_of_lt hk]
        · simp [TemplatePart.shown, hk]
      rw [hshown]
      simp only [fillTemplate, hread]

/-- A character at which no placeholder starts is kept.  A percent sign in front of anything
but a digit is such a character. -/
theorem fillTemplate_character {c : Char} {rest : Text}
    (hplain : ¬ StartsPlaceholder (c :: rest)) (params : List Text) :
    fillTemplate params (c :: rest) = c :: fillTemplate params rest := by
  by_cases hpercent : c = '%'
  · subst hpercent
    cases rest with
    | nil => rfl
    | cons digit rest =>
        have hread : Text.decimalDigit? digit = none := by
          apply Option.eq_none_iff_forall_ne_some.mpr
          intro value hvalue
          exact hplain (startsPlaceholder_iff.mpr ⟨value, Text.decimalDigit?_eq_some_iff.mp hvalue⟩)
        simp only [fillTemplate, hread]
  · simp [fillTemplate, hpercent]

namespace TemplateCut

variable {template rest left right : Text} {parts other leftParts rightParts : List TemplatePart}

/-- A cut of a template is found by looking at its first two characters.  A placeholder
takes both of them, so the induction is on the length. -/
theorem exists_cut (template : Text) : ∃ parts, TemplateCut template parts := by
  induction hlength : template.length using Nat.strong_induction_on generalizing template with
  | h length ih =>
      by_cases hstarts : StartsPlaceholder template
      · obtain ⟨digit, value, rest, hdigit, rfl⟩ := hstarts
        obtain ⟨parts, hparts⟩ := ih rest.length (by rw [← hlength]; simp) rest rfl
        exact ⟨_, .placeholder hdigit hparts⟩
      · cases template with
        | nil => exact ⟨[], .nil⟩
        | cons c rest =>
            obtain ⟨parts, hparts⟩ := ih rest.length (by rw [← hlength]; simp) rest rfl
            exact ⟨_, .character hstarts hparts⟩

/-- A template has one cut.  At each place it either has a placeholder or has none. -/
theorem unique (hparts : TemplateCut template parts) (hother : TemplateCut template other) :
    other = parts := by
  induction hparts generalizing other with
  | nil =>
      cases hother
      rfl
  | placeholder hdigit _ ih =>
      cases hother with
      | placeholder hdigit' hrest => rw [hdigit.unique hdigit', ih hrest]
      | character hplain _ => exact absurd (startsPlaceholder_iff.mpr ⟨_, hdigit⟩) hplain
  | character hplain _ ih =>
      cases hother with
      | placeholder hdigit _ => exact absurd (startsPlaceholder_iff.mpr ⟨_, hdigit⟩) hplain
      | character _ hrest => rw [ih hrest]

/-- Nothing of a template is lost in its cut. -/
theorem flatMap_written (hparts : TemplateCut template parts) :
    parts.flatMap TemplatePart.written = template := by
  induction hparts with
  | nil => rfl
  | placeholder _ _ ih => simp [ih, TemplatePart.written]
  | character _ _ ih => simp [ih, TemplatePart.written]

/-- A template is filled by its cut: each part is shown by itself, and the results are
concatenated. -/
theorem fillTemplate_eq (hparts : TemplateCut template parts) (params : List Text) :
    fillTemplate params template = parts.flatMap (TemplatePart.shown params) := by
  induction hparts with
  | nil => rfl
  | placeholder hdigit _ ih => rw [fillTemplate_placeholder hdigit, ih, List.flatMap_cons]
  | character hplain _ ih => rw [fillTemplate_character hplain, ih, List.flatMap_cons]; rfl

/-- A template ends in `%` and the next one starts with a digit. -/
def Joins (left right : Text) : Prop :=
  left.getLast? = some '%' ∧
    ∃ digit value, Text.IsDecimalDigit digit value ∧ right.head? = some digit

/-- Two templates are cut apart from one another unless a placeholder joins them.  That
takes a percent sign at the end of the first and a digit at the start of the second. -/
theorem append (hleft : TemplateCut left leftParts) (hright : TemplateCut right rightParts)
    (hapart : ¬ Joins left right) :
    TemplateCut (left ++ right) (leftParts ++ rightParts) := by
  induction hleft with
  | nil => exact hright
  | @placeholder digit value rest parts hdigit hrest ih =>
      refine .placeholder hdigit (ih fun hjoins => hapart ⟨?_, hjoins.2⟩)
      simp [List.getLast?_cons, hjoins.1]
  | @character c rest parts hplain hrest ih =>
      refine .character ?_ (ih fun hjoins => hapart ⟨?_, hjoins.2⟩)
      · rintro ⟨digit, value, tail, hdigit, heq⟩
        cases rest with
        | nil =>
            obtain ⟨rfl, rfl⟩ : c = '%' ∧ right = digit :: tail := by simpa using heq
            exact hapart ⟨rfl, digit, value, hdigit, rfl⟩
        | cons d rest =>
            obtain ⟨rfl, rfl, -⟩ : c = '%' ∧ d = digit ∧ rest ++ right = tail := by
              simpa using heq
            exact hplain (startsPlaceholder_iff.mpr ⟨value, hdigit⟩)
      · simp [List.getLast?_cons, hjoins.1]

end TemplateCut

theorem TemplatePart.shown_nil (part : TemplatePart) : part.shown [] = part.written := by
  cases part with
  | placeholder digit value =>
      simp only [shown, written, List.length_nil]
      rw [dif_neg (by omega)]
  | character c => rfl

/-- A message is filled in one pass.

The template has exactly one cut into placeholders and other characters, which keeps all of
it, and the message shows the parts of the cut in their order.  So without parameters the
message is the template, and the message of two templates in a row is made of their own
messages, unless the end of the first and the start of the second make a placeholder. -/
theorem filled_in_one_pass (error : TexError) :
    (∃ parts, TemplateCut error.template parts ∧
      (∀ other, TemplateCut error.template other → other = parts) ∧
      parts.flatMap TemplatePart.written = error.template ∧
      error.message = parts.flatMap (TemplatePart.shown error.params)) ∧
    (error.params = [] → error.message = error.template) ∧
    ∀ left right, ¬ TemplateCut.Joins left right →
      { error with template := left ++ right }.message =
        { error with template := left }.message ++ { error with template := right }.message := by
  obtain ⟨parts, hparts⟩ := TemplateCut.exists_cut error.template
  refine ⟨⟨parts, hparts, fun other => hparts.unique, hparts.flatMap_written,
    hparts.fillTemplate_eq error.params⟩, ?_, ?_⟩
  · intro hparams
    calc
      error.message = parts.flatMap (TemplatePart.shown error.params) :=
        hparts.fillTemplate_eq error.params
      _ = parts.flatMap TemplatePart.written := by
        rw [hparams]
        exact congrArg parts.flatMap (funext TemplatePart.shown_nil)
      _ = error.template := hparts.flatMap_written
  · intro left right hapart
    obtain ⟨leftParts, hleft⟩ := TemplateCut.exists_cut left
    obtain ⟨rightParts, hright⟩ := TemplateCut.exists_cut right
    simp only [TexError.message]
    rw [(hleft.append hright hapart).fillTemplate_eq, List.flatMap_append,
      ← hleft.fillTemplate_eq, ← hright.fillTemplate_eq]

/-- A parameter that looks like a placeholder is kept, alone and beside the template. -/
example :
    (ErrorFamily.unspecified.report ["%2".toList, "x".toList] []
        "%%1%0%1%92%\u0662".toList).message =
      "%%2%0%2%92x".toList := by
  decide +kernel

end TextMode
