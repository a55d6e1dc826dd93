import Mathlib
import TextMode.Expansion.Join
import TextMode.Proofs.Notation.Failures
import TextMode.Proofs.Text.Lines

/-!
# Errors of mixed content

However deep it lies, what fails in mixed content is the end of an island that is missing
or the braces and backslashes of an island.  The messages of such errors fit on a line.
-/

namespace TextMode

/-- An error of splitting, or one of the notation in some source. -/
def ArisesInContent (error : TexError) : Prop :=
  error = .unterminatedNotationIsland ∨
    ∃ (source : Text) (fault : Notation.Fault), error = fault.report source

def FailsInContent {α : Type} (outcome : Except TexError α) : Prop :=
  ∀ error, outcome = .error error → ArisesInContent error

/-- An outcome that fails as the first of some others that fails.  If all of these fail as
mixed content does, so does the outcome. -/
theorem failsInContent_of_findSome? {α β γ : Type} {outcome : Except TexError γ}
    {read : α → Except TexError β} {values : List α}
    (houtcome : failure? outcome = values.findSome? fun value => failure? (read value))
    (hread : ∀ value, FailsInContent (read value)) : FailsInContent outcome := by
  intro error herror
  rw [failure?_eq_some_iff.mpr herror] at houtcome
  obtain ⟨value, -, hvalue⟩ := List.exists_of_findSome?_eq_some houtcome.symm
  exact hread value error (failure?_eq_some_iff.mp hvalue)

theorem failsInContent_scan {reader : IslandReader}
    (hreader : ∀ context source, FailsInContent (reader context source)) (context : Context)
    (text : Text) : FailsInContent (scan reader context text) := by
  cases hsplit : split text with
  | ok pieces => exact failsInContent_of_findSome? (failure?_scan hsplit) (hreader context)
  | error cause =>
      intro error hscan
      rw [scan, hsplit] at hscan
      obtain rfl := Except.error.inj hscan
      exact .inl (eq_of_split_eq_error hsplit)

theorem failsInContent_build {reader : IslandReader}
    (hreader : ∀ context source, FailsInContent (reader context source))
    (level : Option ScriptLevel) (context : Context) (text : Text) :
    FailsInContent (build reader level context text) := by
  intro error hbuild
  apply failsInContent_scan hreader context text error
  rw [← failure?_eq_some_iff, ← failure?_build reader level, failure?_eq_some_iff]
  exact hbuild

namespace Notation

theorem failsInContent_readLevel {opener : Context → Text → Except TexError (List Node)}
    (hopener : ∀ context body, FailsInContent (opener context body)) (context : Context)
    (source : Text) : FailsInContent (readLevel opener context source) := by
  cases hitems : Item.read source with
  | ok items =>
      exact failsInContent_of_findSome? (failure?_readLevel hitems opener context)
        fun box => hopener (box.1.enter context) box.2
  | error fault =>
      intro error hread
      rw [readLevel_of_fault hitems] at hread
      obtain rfl := Except.error.inj hread
      exact .inr ⟨source, fault, rfl⟩

/-- The error of an island comes from splitting or from the notation of some source, however
deep it lies.  The induction is on the depth to which text boxes are opened, as the reader
is built. -/
theorem failsInContent_readWithin (depth : Nat) (context : Context) (source : Text) :
    FailsInContent (readWithin depth context source) := by
  induction depth generalizing context source with
  | zero =>
      have hclosed : FailsInContent (.ok [] : Except TexError (List Node)) := by
        intro error hnever
        cases hnever
      exact failsInContent_readLevel (fun _ _ => hclosed) context source
  | succ depth ih =>
      exact failsInContent_readLevel (failsInContent_build ih none) context source

theorem failsInContent_read (context : Context) (source : Text) :
    FailsInContent (read context source) :=
  failsInContent_readWithin (source.length / 7) context source

end Notation

/-! ## Messages -/

/-- A message is a line if its template and its parameters are.  What the template says
between its placeholders stays as it is. -/
theorem isLine_fillTemplate {params : List Text} (hparams : ∀ param ∈ params, IsLine param)
    {template : Text} (htemplate : IsLine template) : IsLine (fillTemplate params template) := by
  fun_induction fillTemplate params template with
  | case1 => exact isLine_nil
  | case2 c rest k hdigit ih =>
      simp only [isLine_cons] at htemplate
      have hparam : IsLine ((params[k]?).getD ['%', c]) := by
        cases hget : params[k]? with
        | none => simp [htemplate.2.1]
        | some param => exact hparams param (List.mem_of_getElem? hget)
      exact isLine_append.mpr ⟨hparam, ih htemplate.2.2⟩
  | case3 c rest hdigit ih =>
      simp only [isLine_cons] at htemplate ⊢
      exact ⟨htemplate.1, htemplate.2.1, ih htemplate.2.2⟩
  | case4 c rest hdigit ih =>
      simp only [isLine_cons] at htemplate ih ⊢
      exact ⟨htemplate.1, ih htemplate.2⟩
  | case5 c rest hplain ih =>
      simp only [isLine_cons] at htemplate ⊢
      exact ⟨htemplate.1, ih htemplate.2⟩

/-- A template without placeholders is the message, whatever the parameters are.  So a
parameter that is not asked for is not shown. -/
theorem fillTemplate_of_not_mem {template : Text} (htemplate : '%' ∉ template)
    (params : List Text) : fillTemplate params template = template := by
  induction template with
  | nil => rfl
  | cons c rest ih =>
      obtain ⟨hc, hrest⟩ := not_or.mp (mt List.mem_cons.mpr htemplate)
      rw [fillTemplate.eq_3 _ _ _ fun _ _ heq _ => hc heq.symm, ih hrest]

/-- The key and the message of an error fit on a line. -/
def TexError.FitsOnLine (error : TexError) : Prop :=
  IsLine error.key ∧ IsLine error.message

theorem ErrorFamily.fitsOnLine_report {family : ErrorFamily}
    (hdefaultKey : IsLine family.defaultKey) (hdefaultTemplate : IsLine family.defaultTemplate)
    {params : List Text} (hparams : ∀ param ∈ params, IsLine param) {key template : Text}
    (hkey : IsLine key) (htemplate : IsLine template) :
    (family.report params key template).FitsOnLine := by
  constructor
  · rw [report]
    split
    · exact hdefaultKey
    · exact hkey
  · apply isLine_fillTemplate hparams
    change IsLine (if template.isEmpty then family.defaultTemplate else template)
    split
    · exact hdefaultTemplate
    · exact htemplate

theorem Notation.Fault.fitsOnLine (fault : Notation.Fault) (source : Text) :
    (fault.report source).FitsOnLine := by
  have hfamily : IsLine ErrorFamily.malformedNotation.defaultKey ∧
      IsLine ErrorFamily.malformedNotation.defaultTemplate := by decide +kernel
  cases fault with
  | missingCloseBrace =>
      exact ErrorFamily.fitsOnLine_report hfamily.1 hfamily.2 (List.forall_mem_nil _)
        (by decide +kernel) (by decide +kernel)
  | extraCloseBrace =>
      exact ErrorFamily.fitsOnLine_report hfamily.1 hfamily.2 (List.forall_mem_nil _)
        (by decide +kernel) (by decide +kernel)
  | strayBackslash =>
      have hposition := Text.isLine_decimal (source.length - 1)
      exact ErrorFamily.fitsOnLine_report hfamily.1 hfamily.2
        (List.forall_mem_singleton.mpr hposition) (by decide +kernel) (by decide +kernel)

theorem ArisesInContent.fitsOnLine {error : TexError} (harises : ArisesInContent error) :
    error.FitsOnLine := by
  rcases harises with rfl | ⟨source, fault, rfl⟩
  · exact ⟨by decide +kernel, by decide +kernel⟩
  · exact fault.fitsOnLine source

/-- The parameter of an illegal placeholder, which may hold anything, is not shown, and the
error of an overflow has no parameters. -/
theorem Expansion.Fault.fitsOnLine (fault : Expansion.Fault) : fault.report.FitsOnLine := by
  cases fault with
  | overflow limit left right =>
      have hoverflow : TexError.macroBufferOverflow.FitsOnLine :=
        ⟨by decide +kernel, by decide +kernel⟩
      exact hoverflow
  | illegalParameter spelling =>
      have hplain : '%' ∉ ErrorFamily.illegalMacroParameter.defaultTemplate := by decide +kernel
      have hmessage : (TexError.illegalMacroParameter spelling).message =
          ErrorFamily.illegalMacroParameter.defaultTemplate :=
        fillTemplate_of_not_mem hplain [spelling]
      have hfamily : IsLine ErrorFamily.illegalMacroParameter.defaultKey ∧
          IsLine ErrorFamily.illegalMacroParameter.defaultTemplate := by decide +kernel
      refine ⟨hfamily.1, ?_⟩
      rw [report, hmessage]
      exact hfamily.2

end TextMode
