import Mathlib

/-!
# Properties of outcomes

A property is ensured by an outcome if its result has it, should there be one.  Each way of
combining outcomes passes the properties of the parts on.
-/

namespace TextMode

variable {ε α β : Type}

/-- Every result of an outcome has a property. -/
def Ensures (outcome : Except ε α) (property : α → Prop) : Prop :=
  ∀ result, outcome = .ok result → property result

theorem Ensures.of_ok {result : α} {property : α → Prop} (hresult : property result) :
    Ensures (.ok result : Except ε α) property := by
  rintro _ ⟨⟩
  exact hresult

theorem Ensures.of_error {error : ε} {property : α → Prop} :
    Ensures (.error error) property := by
  rintro _ ⟨⟩

theorem Ensures.bind {outcome : Except ε α} {next : α → Except ε β} {property : α → Prop}
    {goal : β → Prop} (houtcome : Ensures outcome property)
    (hnext : ∀ result, property result → Ensures (next result) goal) :
    Ensures (outcome >>= next) goal := by
  cases outcome with
  | error error => exact .of_error
  | ok result => exact hnext result (houtcome result rfl)

theorem Ensures.trivial (outcome : Except ε α) : Ensures outcome fun _ => True :=
  fun _ _ => True.intro

theorem Ensures.mapM {read : α → Except ε β} {property : β → Prop}
    (hread : ∀ value, Ensures (read value) property) (values : List α) :
    Ensures (values.mapM read) fun results => ∀ result ∈ results, property result := by
  induction values with
  | nil => exact .of_ok (List.forall_mem_nil _)
  | cons value values ih =>
      rw [List.mapM_cons]
      refine .bind (hread value) fun result hresult => .bind ih fun results hresults => ?_
      exact .of_ok (List.forall_mem_cons.mpr ⟨hresult, hresults⟩)

/-- A run over a list gives one result for each member, in order, and each is the result of
that member. -/
theorem ensures_forall₂_mapM (read : α → Except ε β) (values : List α) :
    Ensures (values.mapM read)
      (List.Forall₂ (fun value result => read value = .ok result) values) := by
  induction values with
  | nil => exact .of_ok .nil
  | cons value values ih =>
      have hhead : Ensures (read value) fun result => read value = .ok result := fun _ => id
      rw [List.mapM_cons]
      refine .bind hhead fun result hresult => .bind ih fun results hresults => ?_
      exact .of_ok (.cons hresult hresults)

theorem Ensures.map {outcome : Except ε α} {f : α → β} {goal : β → Prop}
    (houtcome : Ensures outcome fun result => goal (f result)) :
    Ensures (outcome.map f) goal := by
  cases outcome with
  | error error => exact .of_error
  | ok result => exact .of_ok (houtcome result rfl)

theorem Ensures.mapError {ε' : Type} {outcome : Except ε α} {f : ε → ε'} {property : α → Prop}
    (houtcome : Ensures outcome property) : Ensures (outcome.mapError f) property := by
  cases outcome with
  | error error => exact .of_error
  | ok result => exact .of_ok (houtcome result rfl)

end TextMode
