import Mathlib.Logic.Basic

/-!
# Fallible computations

`Except` as the meaning of code that throws: what it means for a sequence to return, and
for it to throw.
-/

namespace HotelBackend.Theory.Result

variable {ε α β : Type}

/-- `if (!c) throw e`. -/
def require (c : Bool) (e : ε) : Except ε Unit := if c then .ok () else .error e

/-- `x ?? throw e`. -/
def orThrow (o : Option α) (e : ε) : Except ε α :=
  match o with
  | some a => .ok a
  | none => .error e

theorem isOk_iff {x : Except ε α} : x.isOk = true ↔ ∃ a, x = .ok a := by
  cases x <;> simp [Except.isOk, Except.toBool]

theorem ok_bind (a : α) (f : α → Except ε β) : (Except.ok a >>= f) = f a := rfl

theorem error_bind (e : ε) (f : α → Except ε β) : (Except.error e >>= f) = .error e := rfl

/-- A sequence returns if both of its parts do. -/
theorem bind_eq_ok {x : Except ε α} {f : α → Except ε β} {b : β} : (x >>= f) = .ok b ↔ ∃ a, x = .ok a ∧ f a = .ok b := by
  cases x with
  | error e => simp [bind, Except.bind]
  | ok a => simp [bind, Except.bind]

/-- A sequence throws if its first part does, or its second after it. -/
theorem bind_eq_error {x : Except ε α} {f : α → Except ε β} {e : ε} :
    (x >>= f) = .error e ↔ x = .error e ∨ ∃ a, x = .ok a ∧ f a = .error e := by
  cases x with
  | error d => simp [bind, Except.bind]
  | ok a => simp [bind, Except.bind]

@[simp] theorem pure_eq_ok {a b : α} : (pure a : Except ε α) = .ok b ↔ a = b := by
  simp [pure, Except.pure]

@[simp] theorem require_eq_ok {c : Bool} {e : ε} {u : Unit} : require c e = .ok u ↔ c = true := by
  cases c <;> simp [require]

@[simp] theorem require_eq_error {c : Bool} {e d : ε} : require c e = .error d ↔ c = false ∧ e = d := by
  cases c <;> simp [require]

@[simp] theorem orThrow_eq_ok {o : Option α} {e : ε} {a : α} : orThrow o e = .ok a ↔ o = some a := by
  cases o <;> simp [orThrow]

@[simp] theorem orThrow_eq_error {o : Option α} {e d : ε} : orThrow o e = .error d ↔ o = none ∧ e = d := by
  cases o <;> simp [orThrow]

theorem mapError_ok {ε' : Type} (f : ε → ε') (a : α) : (Except.ok a : Except ε α).mapError f = .ok a := rfl

theorem mapError_error {ε' : Type} (f : ε → ε') (d : ε) : (Except.error d : Except ε α).mapError f = .error (f d) := rfl

@[simp] theorem mapError_eq_ok {ε' : Type} {f : ε → ε'} {x : Except ε α} {a : α} : x.mapError f = .ok a ↔ x = .ok a := by
  cases x <;> simp [mapError_ok, mapError_error]

@[simp] theorem mapError_eq_error {ε' : Type} {f : ε → ε'} {x : Except ε α} {e : ε'} :
    x.mapError f = .error e ↔ ∃ d, x = .error d ∧ f d = e := by
  cases x <;> simp [mapError_ok, mapError_error]

/-- One bad element is enough to throw. -/
theorem mapM_guarded {p : α → Bool} {g : α → β} {e : ε} (l : List α) :
    (l.mapM fun a => if p a then .ok (g a) else .error e) = if l.all p then Except.ok (l.map g) else .error e := by
  induction l with
  | nil => rfl
  | cons a l ih =>
    rw [List.mapM_cons, ih, List.all_cons, List.map_cons]
    cases hp : p a with
    | false => rfl
    | true => cases hall : l.all p <;> rfl

/-- What is thrown, one of the elements threw. -/
theorem mapM_error {f : α → Except ε β} {l : List α} {e : ε} (h : l.mapM f = .error e) : ∃ a ∈ l, f a = .error e := by
  induction l with
  | nil => cases h
  | cons a l ih =>
    rw [List.mapM_cons] at h
    rcases bind_eq_error.1 h with ha | ⟨b, -, hl⟩
    · exact ⟨a, List.mem_cons_self, ha⟩
    · rcases bind_eq_error.1 hl with hl | ⟨bs, -, hnil⟩
      · obtain ⟨a', ha', he⟩ := ih hl
        exact ⟨a', List.mem_cons_of_mem a ha', he⟩
      · cases hnil

theorem forall_of_mapM_ok {f : α → Except ε β} {l : List α} {bs : List β} (h : l.mapM f = .ok bs) : ∀ a ∈ l, ∃ b, f a = .ok b := by
  induction l generalizing bs with
  | nil => exact fun a ha => absurd ha List.not_mem_nil
  | cons a l ih =>
    rw [List.mapM_cons] at h
    obtain ⟨b, ha, hl⟩ := bind_eq_ok.1 h
    obtain ⟨bs', hbs, -⟩ := bind_eq_ok.1 hl
    exact List.forall_mem_cons.2 ⟨⟨b, ha⟩, ih hbs⟩

theorem forM_eq_ok {f : α → Except ε PUnit} {l : List α} : forM l f = .ok () ↔ ∀ a ∈ l, f a = .ok () := by
  induction l with
  | nil => exact ⟨fun _ a ha => absurd ha List.not_mem_nil, fun _ => rfl⟩
  | cons a l ih =>
    rw [List.forM_cons, bind_eq_ok, List.forall_mem_cons, ih]
    constructor
    · rintro ⟨_, ha, hl⟩
      exact ⟨ha, hl⟩
    · rintro ⟨ha, hl⟩
      exact ⟨(), ha, hl⟩

theorem mapM_ok {f : α → Except ε β} {g : α → β} {l : List α} (h : ∀ a ∈ l, f a = .ok (g a)) : l.mapM f = .ok (l.map g) := by
  induction l with
  | nil => rfl
  | cons a l ih =>
    obtain ⟨ha, hl⟩ := List.forall_mem_cons.1 h
    rw [List.mapM_cons, ha, ih hl]
    rfl

end HotelBackend.Theory.Result
