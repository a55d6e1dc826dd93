import Mathlib
import TextMode.Settings.Session

/-!
# Settings that stay in force

What is cached after a run of steps is what the first successful get since the last
clearing has loaded.  So a get answers these settings if there are any, and loads them from
the variables and the file as they stand if there are none.  A get that fails leaves no
trace.
-/

namespace TextMode.Settings

/-! ## Variables -/

/-- The variables behind a step. -/
def Step.editVariables (environment : Entries Text Text) : Step → Entries Text Text
  | set pairs => Entries.insertAll pairs environment
  | unset name => Entries.erase name environment
  | writeFile _ | clear | get => environment

/-- The file of variables behind a step. -/
def Step.editFile (file : Option Text) : Step → Option Text
  | writeFile content => some content
  | set _ | unset _ | clear | get => file

namespace Session

variable {session start : Session} {history : List Step} {settings : Settings}

theorem environment_after (session : Session) (step : Step) :
    (session.after step).environment = step.editVariables session.environment := by
  cases step with
  | get =>
      rw [after]
      split <;> rfl
  | set _ | unset _ | writeFile _ | clear => rfl

theorem file_after (session : Session) (step : Step) :
    (session.after step).file = step.editFile session.file := by
  cases step with
  | get =>
      rw [after]
      split <;> rfl
  | set _ | unset _ | writeFile _ | clear => rfl

/-! ## Steps and the cache -/

theorem get_of_cached (hcached : session.cached = some settings) :
    session.get = .ok settings := by
  rw [get, hcached]

theorem get_of_not_cached (hcached : session.cached = none) :
    session.get = load session.environment session.file := by
  rw [get, hcached]

theorem cached_of_get_eq_error {fault : Fault} (hget : session.get = .error fault) :
    session.cached = none := by
  cases hcached : session.cached with
  | none => rfl
  | some settings =>
      rw [get_of_cached hcached] at hget
      cases hget

/-- A get that fails leaves the session as it is.  A failure is not cached, so the next get
loads again. -/
theorem after_get_of_eq_error {fault : Fault} (hget : session.get = .error fault) :
    session.after .get = session := by
  rw [after, hget]

theorem cached_after_get : (session.after .get).cached = some settings ↔
    session.get = .ok settings := by
  cases hget : session.get with
  | ok found => simp [after, hget]
  | error fault =>
      rw [after_get_of_eq_error hget, cached_of_get_eq_error hget]
      simp

theorem cached_after {step : Step} (hget : step ≠ .get) (hclear : step ≠ .clear) :
    (session.after step).cached = session.cached := by
  cases step with
  | get => exact absurd rfl hget
  | clear => exact absurd rfl hclear
  | set _ | unset _ | writeFile _ => rfl

/-! ## Runs -/

/-- The session after a list of steps. -/
def afterAll (session : Session) (steps : List Step) : Session :=
  steps.foldl after session

theorem afterAll_concat (session : Session) (steps : List Step) (step : Step) :
    session.afterAll (steps ++ [step]) = (session.afterAll steps).after step := by
  rw [afterAll, List.foldl_append]
  rfl

theorem environment_afterAll (session : Session) (steps : List Step) :
    (session.afterAll steps).environment =
      steps.foldl Step.editVariables session.environment := by
  induction steps generalizing session with
  | nil => rfl
  | cons step steps ih =>
      rw [List.foldl_cons, ← environment_after]
      exact ih (session.after step)

theorem file_afterAll (session : Session) (steps : List Step) :
    (session.afterAll steps).file = steps.foldl Step.editFile session.file := by
  induction steps generalizing session with
  | nil => rfl
  | cons step steps ih =>
      rw [List.foldl_cons, ← file_after]
      exact ih (session.after step)

/-- Each step is answered by the session after the steps before it.  The steps behind it
have no effect on its answer. -/
theorem answers_append (session : Session) (before : List Step) (step : Step)
    (later : List Step) :
    (session.answers (before ++ step :: later))[before.length]? =
      some ((session.afterAll before).answer step) := by
  induction before generalizing session with
  | nil => rfl
  | cons first before ih => exact ih (session.after first)

/-- A get has loaded these settings, and nothing was cleared since. -/
def InForce (start : Session) (history : List Step) (settings : Settings) : Prop :=
  ∃ before since, history = before ++ .get :: since ∧ .clear ∉ since ∧
    (start.afterAll before).get = .ok settings

theorem inForce_concat_iff {step : Step} :
    InForce start (history ++ [step]) settings ↔
      step = .get ∧ (start.afterAll history).get = .ok settings ∨
        step ≠ .clear ∧ InForce start history settings := by
  constructor
  · rintro ⟨before, since, hhistory, hclear, hget⟩
    rcases List.eq_nil_or_concat since with rfl | ⟨since, last, rfl⟩
    · obtain ⟨rfl, hstep⟩ := List.append_inj' hhistory rfl
      exact .inl ⟨List.singleton_inj.mp hstep, hget⟩
    · have hsplit : history ++ [step] = (before ++ .get :: since) ++ [last] := by
        rw [hhistory, List.concat_eq_append, List.append_assoc, List.cons_append]
      obtain ⟨rfl, hlast⟩ := List.append_inj' hsplit rfl
      obtain rfl := List.singleton_inj.mp hlast
      rw [List.concat_eq_append, List.mem_append, not_or, List.mem_singleton] at hclear
      exact .inr ⟨Ne.symm hclear.2, before, since, rfl, hclear.1, hget⟩
  · rintro (⟨rfl, hget⟩ | ⟨hstep, before, since, rfl, hclear, hget⟩)
    · exact ⟨history, [], rfl, List.not_mem_nil, hget⟩
    · refine ⟨before, since ++ [step], by simp, ?_, hget⟩
      rw [List.mem_append, List.mem_singleton, not_or]
      exact ⟨hclear, Ne.symm hstep⟩

/-- The cache holds what is in force.  The induction is on the history from its end, as a
step only changes what is in force before it. -/
theorem cached_afterAll_iff (hstart : start.cached = none) :
    (start.afterAll history).cached = some settings ↔ InForce start history settings := by
  induction history using List.reverseRecOn with
  | nil =>
      have hnone : ¬ InForce start [] settings := by
        rintro ⟨before, since, hhistory, -, -⟩
        simp at hhistory
      simp [afterAll, hstart, hnone]
  | append_singleton history step ih =>
      rw [afterAll_concat, inForce_concat_iff, ← ih]
      by_cases hget : step = .get
      · subst hget
        rw [cached_after_get]
        constructor
        · exact fun hloaded => .inl ⟨rfl, hloaded⟩
        · rintro (⟨-, hloaded⟩ | ⟨-, hcached⟩)
          · exact hloaded
          · exact get_of_cached hcached
      by_cases hclear : step = .clear
      · subst hclear
        simp [after]
      rw [cached_after hget hclear]
      simp [hget, hclear]

/-- A session in which nothing has been loaded. -/
def fresh (environment : Entries Text Text) (file : Option Text) : Session where
  environment := environment
  file := file

/-- A get answers the settings in force if there are any, and otherwise what the variables
and the file give as the steps before it have left them.  If it fails, the session stays as
it is, with nothing cached, and steps that neither get nor clear do not touch the cache. -/
theorem first_success_in_force (environment : Entries Text Text) (file : Option Text)
    (history later : List Step) :
    ((fresh environment file).answers (history ++ .get :: later))[history.length]? =
      some (some ((fresh environment file).afterAll history).get) ∧
    (∀ settings, InForce (fresh environment file) history settings →
      ((fresh environment file).afterAll history).get = .ok settings) ∧
    ((∀ settings, ¬ InForce (fresh environment file) history settings) →
      ((fresh environment file).afterAll history).get =
        load (history.foldl Step.editVariables environment)
          (history.foldl Step.editFile file)) ∧
    (∀ fault, ((fresh environment file).afterAll history).get = .error fault →
      ((fresh environment file).afterAll history).cached = none ∧
        (fresh environment file).afterAll (history ++ [.get]) =
          (fresh environment file).afterAll history) ∧
    (∀ step, step ≠ .get → step ≠ .clear →
      ((fresh environment file).afterAll (history ++ [step])).cached =
        ((fresh environment file).afterAll history).cached) := by
  have hfresh : (fresh environment file).cached = none := rfl
  refine ⟨answers_append _ history .get later, ?_, ?_, ?_, ?_⟩
  · intro settings hforce
    exact get_of_cached ((cached_afterAll_iff hfresh).mpr hforce)
  · intro hnone
    have hcached : ((fresh environment file).afterAll history).cached = none := by
      apply Option.eq_none_iff_forall_ne_some.mpr
      intro settings hcached
      exact hnone settings ((cached_afterAll_iff hfresh).mp hcached)
    rw [get_of_not_cached hcached, environment_afterAll, file_afterAll]
    rfl
  · intro fault hget
    rw [afterAll_concat]
    exact ⟨cached_of_get_eq_error hget, after_get_of_eq_error hget⟩
  · intro step hget hclear
    rw [afterAll_concat, cached_after hget hclear]

end Session

end TextMode.Settings
