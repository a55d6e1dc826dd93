import Mathlib
import TextMode.Context

/-!
# Contexts derived from one another

A script keeps a list of contexts and derives each new one from any that it has already.
Whether a context is inside an equation, and which font it has, depends on the changes that
lead from the first context to it and on nothing else that the script does.
-/

namespace TextMode.Context

/-- A way to make a new context of an old one. -/
inductive Change where
  | setFont (font : Option Text)
  | enterEquation
  deriving DecidableEq, Repr

def change (context : Context) : Change → Except TexError Context
  | .setFont font => .ok (context.withFont font)
  | .enterEquation => context.enterEquation

/-- The font that a change sets, which may be none. -/
def Change.font? : Change → Option (Option Text)
  | setFont font => some font
  | enterEquation => none

/-- A change of what stands at a place of a list. -/
structure Step where
  place : Nat
  change : Change
  deriving DecidableEq, Repr

/-! ## Lists that grow -/

section Growth

variable {α β : Type}

/-- What a step appends to a list: its result, or nothing if it fails or its place is
empty. -/
def results (change : α → Change → Except TexError α) (values : List α) (step : Step) :
    List α :=
  (values[step.place]?.bind fun base => (change base step.change).toOption).toList

def grow (change : α → Change → Except TexError α) (values : List α) (script : List Step) :
    List α :=
  script.foldl (fun values step => values ++ results change values step) values

variable {change : α → Change → Except TexError α}

theorem grow_append (values : List α) (script later : List Step) :
    grow change values (script ++ later) = grow change (grow change values script) later :=
  List.foldl_append

/-- A script only adds to a list.  What is there stays where it is, and so do the places of
all steps. -/
theorem prefix_grow (values : List α) (script : List Step) :
    values <+: grow change values script := by
  induction script generalizing values with
  | nil => exact List.prefix_rfl
  | cons step script ih => exact (List.prefix_append _ _).trans (ih _)

/-- A step does not see what is appended behind its place. -/
theorem results_append {values : List α} {step : Step} (hplace : step.place < values.length)
    (later : List α) : results change (values ++ later) step = results change values step := by
  rw [results, results, List.getElem?_append_left hplace]

/-- Steps whose places are there already do not see one another.  What the first of them
append stands behind the places of the others. -/
theorem grow_siblings {values : List α} {siblings : List Step}
    (hplaces : ∀ step ∈ siblings, step.place < values.length) :
    grow change values siblings = values ++ siblings.flatMap (results change values) := by
  suffices hlater : ∀ later, grow change (values ++ later) siblings =
      values ++ later ++ siblings.flatMap (results change values) by
    simpa using hlater []
  induction siblings with
  | nil => simp [grow]
  | cons step siblings ih =>
      intro later
      obtain ⟨hplace, hrest⟩ := List.forall_mem_cons.mp hplaces
      have hstep : grow change (values ++ later) (step :: siblings) =
          grow change (values ++ (later ++ results change values step)) siblings := by
        rw [← List.append_assoc, ← results_append hplace later]
        rfl
      rw [hstep, ih hrest, List.flatMap_cons]
      simp only [List.append_assoc]

/-- What the values of a list are reduced to grows as the list does.  A change has to
commute with the reduction, errors included. -/
theorem map_grow {reduce : β → α} {change' : β → Change → Except TexError β}
    (hchange : ∀ value step, (change' value step).map reduce = change (reduce value) step)
    (values : List β) (script : List Step) :
    (grow change' values script).map reduce = grow change (values.map reduce) script := by
  induction script generalizing values with
  | nil => rfl
  | cons step script ih =>
      have hresults : (results change' values step).map reduce =
          results change (values.map reduce) step := by
        rw [results, results, List.getElem?_map]
        cases values[step.place]? with
        | none => rfl
        | some base =>
            simp only [Option.bind_some, Option.map_some, ← hchange]
            cases change' base step.change <;> rfl
      have hstep := ih (values ++ results change' values step)
      rw [List.map_append, hresults] at hstep
      exact hstep

/-- What holds of the values of a list, and of the result of each change, holds of all
values behind a script. -/
theorem forall_mem_grow {property : α → Prop}
    (hchange : ∀ value step next, property value → change value step = .ok next → property next)
    {values : List α} (hvalues : ∀ value ∈ values, property value) (script : List Step) :
    ∀ value ∈ grow change values script, property value := by
  induction script generalizing values with
  | nil => exact hvalues
  | cons step script ih =>
      refine ih fun value hvalue => ?_
      rcases List.mem_append.mp hvalue with hvalue | hvalue
      · exact hvalues value hvalue
      · simp only [results, Option.mem_toList, Option.bind_eq_some_iff] at hvalue
        obtain ⟨base, hbase, hresult⟩ := hvalue
        cases hstep : change base step.change with
        | error error => simp [hstep, Except.toOption] at hresult
        | ok next =>
            obtain rfl : next = value := by simpa [hstep, Except.toOption] using hresult
            exact hchange base step.change next
              (hvalues base (List.mem_of_getElem? hbase)) hstep

end Growth

/-! ## Contexts and what leads to them -/

/-- The contexts behind a script, which starts from one context. -/
def contexts (script : List Step) : List Context :=
  grow change [{}] script

/-- A context with the changes that lead to it from the first one. -/
structure Derivation where
  changes : List Change := []
  context : Context := {}
  deriving DecidableEq, Repr

def Derivation.extend (base : Derivation) (step : Change) : Except TexError Derivation :=
  (base.context.change step).map fun context => ⟨base.changes ++ [step], context⟩

/-- The contexts behind a script, each with its own changes. -/
def derivations (script : List Step) : List Derivation :=
  grow Derivation.extend [{}] script

/-- What the changes make of the first context. -/
def replay (changes : List Change) : Except TexError Context :=
  changes.foldlM change {}

/-- What the changes that lead to a context say about it. -/
structure Tracks (changes : List Change) (context : Context) : Prop where
  inEquation : context.inEquation = true ↔ .enterEquation ∈ changes
  entered_once : changes.count .enterEquation ≤ 1
  font : context.font = (changes.filterMap Change.font?).getLast?.join

variable {context next : Context} {changes : List Change} {step : Change}

theorem enterEquation_eq_ok_iff :
    context.enterEquation = .ok next ↔
      context.inEquation = false ∧ { context with inEquation := true } = next := by
  rw [enterEquation]
  cases context.inEquation <;> simp

/-- Entering fails only for a context that is inside an equation already, and always with
the same error. -/
theorem enterEquation_eq_error_iff {error : TexError} :
    context.enterEquation = .error error ↔
      .erroneousNesting = error ∧ context.inEquation = true := by
  rw [enterEquation]
  cases context.inEquation <;> simp

/-- A change keeps what the changes so far say of the context.  An equation can be entered
only from outside, and then none of the changes so far has entered one. -/
theorem Tracks.change (htracks : Tracks changes context)
    (hchange : context.change step = .ok next) : Tracks (changes ++ [step]) next := by
  cases step with
  | setFont font =>
      obtain rfl := Except.ok.inj hchange
      exact {
        inEquation := by simpa [withFont] using htracks.inEquation
        entered_once := by simpa [List.count_append] using htracks.entered_once
        font := by simp [withFont, Change.font?] }
  | enterEquation =>
      obtain ⟨houtside, rfl⟩ := enterEquation_eq_ok_iff.mp hchange
      have hfirst : .enterEquation ∉ changes := by
        rw [← htracks.inEquation, houtside]
        exact Bool.false_ne_true
      exact {
        inEquation := by simp
        entered_once := by simp [List.count_append, List.count_eq_zero.mpr hfirst]
        font := by simpa [Change.font?] using htracks.font }

/-- A derivation is replayed change by change, so one more change acts on the result of the
others. -/
theorem replay_concat (changes : List Change) (step : Change) :
    replay (changes ++ [step]) = replay changes >>= fun context => context.change step := by
  simp only [replay, List.foldlM_append, List.foldlM_cons, List.foldlM_nil, bind_pure]

/-- A derivation is a replay of its changes, and these tell its context. -/
structure Derivation.IsSound (derivation : Derivation) : Prop where
  tracks : Tracks derivation.changes derivation.context
  replay_eq : replay derivation.changes = .ok derivation.context

/-- A sound derivation stays sound with one more change: it still tracks its context, and
its changes still lead there. -/
theorem Derivation.IsSound.extend {derivation longer : Derivation} (hsound : derivation.IsSound)
    (hextend : derivation.extend step = .ok longer) : longer.IsSound := by
  cases hchange : derivation.context.change step with
  | error error =>
      rw [Derivation.extend, hchange] at hextend
      cases hextend
  | ok next =>
      rw [Derivation.extend, hchange] at hextend
      obtain rfl := Except.ok.inj hextend
      refine ⟨hsound.tracks.change hchange, ?_⟩
      rw [replay_concat, hsound.replay_eq]
      exact hchange

/-- Every derivation of a script is sound.  The first one has no changes, and each other
extends one that was there before it. -/
theorem isSound_of_mem_derivations {script : List Step} {derivation : Derivation}
    (hmem : derivation ∈ derivations script) : derivation.IsSound := by
  have hfirst : ({} : Derivation).IsSound := ⟨⟨by simp, by simp, rfl⟩, rfl⟩
  refine forall_mem_grow ?_ ?_ script derivation hmem
  · exact fun base step longer hbase hextend => hbase.extend hextend
  · exact fun value hvalue => List.mem_singleton.mp hvalue ▸ hfirst

/-- Recording the changes does not change the contexts. -/
theorem map_context_derivations (script : List Step) :
    (derivations script).map Derivation.context = contexts script := by
  have hextend : ∀ (base : Derivation) (step : Change),
      (base.extend step).map Derivation.context = base.context.change step := by
    intro base step
    rw [Derivation.extend]
    cases base.context.change step <;> rfl
  exact map_grow hextend [{}] script

theorem contexts_append (script later : List Step) :
    contexts (script ++ later) = grow change (contexts script) later :=
  grow_append _ _ _

/-- Steps from contexts that are there append the same whatever stands between them.  None
of them sees what another has appended. -/
theorem contexts_siblings {script siblings : List Step}
    (hplaces : ∀ step ∈ siblings, step.place < (contexts script).length) :
    contexts (script ++ siblings) =
      contexts script ++ siblings.flatMap (results change (contexts script)) := by
  rw [contexts_append, grow_siblings hplaces]

/-- A context outside equations gives one new context when it enters one, and a context
inside gives none. -/
theorem contexts_enterEquation {script : List Step} {place : Nat}
    (hplace : (contexts script)[place]? = some context) :
    contexts (script ++ [⟨place, .enterEquation⟩]) =
      contexts script ++ context.enterEquation.toOption.toList := by
  rw [contexts_append]
  simp [grow, results, hplace, change]

/-- Equations are tracked for each derivation and not for the script.

A context is inside an equation exactly if one of the changes that lead to it enters one,
which happens once at most, and its font is the last that they set.  A second equation is
refused, and then the list stays as it is.  Nothing that a script does touches the contexts
that are there, and steps from contexts that are there append the same whatever stands
between them and in whatever order they come. -/
theorem equations_tracked_by_derivation (script : List Step) :
    (derivations script).map Derivation.context = contexts script ∧
    (∀ derivation ∈ derivations script,
      Tracks derivation.changes derivation.context ∧
        replay derivation.changes = .ok derivation.context) ∧
    (∀ place derivation, (derivations script)[place]? = some derivation →
      (∀ error, derivation.context.enterEquation = .error error ↔
        .erroneousNesting = error ∧ .enterEquation ∈ derivation.changes) ∧
      (.enterEquation ∈ derivation.changes →
        contexts (script ++ [⟨place, .enterEquation⟩]) = contexts script)) ∧
    (∀ later, contexts script <+: contexts (script ++ later)) ∧
    ∀ siblings : List Step, (∀ step ∈ siblings, step.place < (contexts script).length) →
      contexts (script ++ siblings) =
        contexts script ++ siblings.flatMap (results change (contexts script)) ∧
      ∀ other, other.Perm siblings →
        (contexts (script ++ other)).Perm (contexts (script ++ siblings)) := by
  refine ⟨map_context_derivations script, ?_, ?_, ?_, ?_⟩
  · intro derivation hmem
    have hsound := isSound_of_mem_derivations hmem
    exact ⟨hsound.tracks, hsound.replay_eq⟩
  · intro place derivation hplace
    have htracks := (isSound_of_mem_derivations (List.mem_of_getElem? hplace)).tracks
    refine ⟨fun error => ?_, fun hentered => ?_⟩
    · rw [enterEquation_eq_error_iff, htracks.inEquation]
    · have hcontext : (contexts script)[place]? = some derivation.context := by
        rw [← map_context_derivations, List.getElem?_map, hplace]
        rfl
      have hrefused : derivation.context.enterEquation = .error .erroneousNesting :=
        enterEquation_eq_error_iff.mpr ⟨rfl, htracks.inEquation.mpr hentered⟩
      rw [contexts_enterEquation hcontext, hrefused]
      simp [Except.toOption]
  · intro later
    rw [contexts_append]
    exact prefix_grow _ _
  · intro siblings hplaces
    refine ⟨contexts_siblings hplaces, fun other hperm => ?_⟩
    have hother : ∀ step ∈ other, step.place < (contexts script).length :=
      fun step hstep => hplaces step (hperm.subset hstep)
    rw [contexts_siblings hother, contexts_siblings hplaces]
    exact (hperm.flatMap_right _).append_left _

/-- Two branches of the first context enter an equation each; a branch of a branch cannot. -/
example :
    contexts [⟨0, .enterEquation⟩, ⟨1, .enterEquation⟩, ⟨0, .setFont (some "bold".toList)⟩,
        ⟨2, .enterEquation⟩, ⟨1, .setFont none⟩] =
      [⟨none, false⟩, ⟨none, true⟩, ⟨some "bold".toList, false⟩,
        ⟨some "bold".toList, true⟩, ⟨none, true⟩] := by
  decide

end TextMode.Context
