import DataAccess.Session

/-!
# Opening computations

A computation that succeeded is taken apart at its binds: each part succeeded and left the
state that the next part began with.
-/

set_option autoImplicit false

namespace DataAccess

section
variable {ε σ α β : Type}

theorem bind_eq_ok {x : Except ε α} {f : α → Except ε β} {b : β} :
    (x >>= f) = .ok b ↔ ∃ a, x = .ok a ∧ f a = .ok b := by
  cases x <;> simp [bind, Except.bind]

theorem bind_eq_error {x : Except ε α} {f : α → Except ε β}
    (hf : ∀ a, x = .ok a → ∃ b, f a = .ok b) (e : ε) : (x >>= f) = .error e ↔ x = .error e := by
  cases x with
  | error e' => simp [bind, Except.bind]
  | ok a =>
    obtain ⟨b, hb⟩ := hf a rfl
    simp [bind, Except.bind, hb]

theorem exists_of_isOk {x : Except ε α} (h : x.isOk = true) : ∃ a, x = .ok a := by
  cases x with
  | error e => cases h
  | ok a => exact ⟨a, rfl⟩

theorem run_liftM_ok {x : Except ε α} {s s' : σ} {a : α} :
    (liftM x : ExceptT ε (StateM σ) α).run s = (.ok a, s') ↔ x = .ok a ∧ s' = s := by
  have hrun : (liftM x : ExceptT ε (StateM σ) α).run s = (x, s) := by cases x <;> rfl
  rw [hrun, Prod.mk.injEq, eq_comm (a := s)]

theorem run_bind (x : ExceptT ε (StateM σ) α) (f : α → ExceptT ε (StateM σ) β) (s : σ) :
    (x >>= f).run s = match x.run s with
      | (.ok a, mid) => (f a).run mid
      | (.error e, mid) => (.error e, mid) := by
  have hb : (x >>= f).run s = ExceptT.bindCont f (x.run s).1 (x.run s).2 := rfl
  rw [hb]
  rcases x.run s with ⟨r, mid⟩
  cases r <;> rfl

theorem run_bind_ok {x : ExceptT ε (StateM σ) α} {f : α → ExceptT ε (StateM σ) β}
    {s s' : σ} {b : β} :
    (x >>= f).run s = (.ok b, s') ↔
      ∃ a mid, x.run s = (.ok a, mid) ∧ (f a).run mid = (.ok b, s') := by
  rw [run_bind]
  rcases x.run s with ⟨r, mid⟩
  constructor
  · intro h
    cases r with
    | error e => cases h
    | ok a => exact ⟨a, mid, rfl, h⟩
  · rintro ⟨a, mid', hx, hf⟩
    cases hx
    exact hf

theorem run_lift_bind_ok {x : Except ε α} {f : α → ExceptT ε (StateM σ) β} {s s' : σ} {b : β} :
    ((liftM x : ExceptT ε (StateM σ) α) >>= f).run s = (.ok b, s') ↔
      ∃ a, x = .ok a ∧ (f a).run s = (.ok b, s') := by
  rw [run_bind_ok]
  constructor
  · rintro ⟨a, mid, hlift, hf⟩
    obtain ⟨hx, rfl⟩ := run_liftM_ok.mp hlift
    exact ⟨a, hx, hf⟩
  · rintro ⟨a, hx, hf⟩
    exact ⟨a, s, run_liftM_ok.mpr ⟨hx, rfl⟩, hf⟩

end

theorem Registry.get?_of_mapping {registry : Registry} {business : String} {m : Mapping}
    (h : registry.mapping business = .ok m) : registry.get? business = some m := by
  unfold Registry.mapping at h
  split at h
  · next hm =>
    cases h
    exact hm
  · cases h

theorem Mapping.column?_of_column {m : Mapping} {prop : String} {c : Column}
    (h : m.column prop = .ok c) : m.column? prop = some c := by
  unfold Mapping.column at h
  split at h
  · next hc =>
    cases h
    exact hc
  · cases h

end DataAccess
