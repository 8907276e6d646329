import MoteLink.Speed.Registry

/-! The first use of a registry, which runs its setup. Nothing but an interrupt comes out of it. -/

namespace MoteLink.Registry

/-- The setup raises no interrupt. -/
def Mild (r : Registry) : Prop := ∀ fault, .fails fault ∈ r.setup → fault.isInterrupt = false

theorem mild_ofSetup (entries : List (String × Int)) : (ofSetup entries).Mild := by
  intro fault h
  obtain ⟨entry, _, he⟩ := List.mem_map.1 h
  exact nomatch he

theorem fails_of_each_perform {steps : List SetupStep} {r : Registry} {fault : Fault}
    (h : (Act.each perform steps r).result = .error fault) : .fails fault ∈ steps := by
  induction steps generalizing r with
  | nil => simp [Act.each] at h
  | cons step rest ih =>
    rw [Act.each, Act.run_bind] at h
    cases step with
    | insert name baud => exact List.mem_cons_of_mem _ (ih h)
    | find name => exact List.mem_cons_of_mem _ (ih h)
    | fails f =>
      obtain rfl : f = fault := Except.error.inj h
      exact List.mem_cons_self ..

theorem Mild.ready {r : Registry} (h : r.Mild) : (ready r).result = .ok () := by
  unfold Registry.ready
  rw [Act.bind_ok (Act.run_look _ _)]
  cases r.speeds.isNone with
  | false => rfl
  | true =>
    have hsetup := fun fault => @fails_of_each_perform r.setup { r with speeds := some [] } fault
    generalize ho : Act.each perform r.setup { r with speeds := some [] } = o at hsetup
    obtain ⟨result, s, t⟩ := o
    have hattempt : Act.attempt (Act.each perform r.setup) { r with speeds := some [] } =
        ⟨.ok result, s, t⟩ := by rw [Act.attempt, ho]
    simp only [if_true]
    rw [Act.bind_ok (Act.run_update _ _), Act.bind_ok (Act.run_emit _ _),
      Act.bind_ok (Act.run_look _ _), Act.bind_ok hattempt]
    cases result with
    | ok _ => rfl
    | error fault =>
      have hmild := h fault (hsetup fault rfl)
      simp [hmild, Outcome.after]

theorem Mild.find {r : Registry} (h : r.Mild) (name : String) :
    ∃ baud, (find name r).result = .ok baud := by
  have hready := h.ready
  unfold Registry.find
  rw [Act.run_bind]
  cases ho : Registry.ready r with
  | mk result s t =>
    rw [ho] at hready
    obtain rfl : result = .ok () := hready
    exact ⟨s.get name, rfl⟩

end MoteLink.Registry
