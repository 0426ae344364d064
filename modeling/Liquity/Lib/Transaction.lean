import Mathlib.Algebra.Order.Ring.Nat
import Mathlib.Data.Nat.Basic
import Mathlib.Tactic.Common

/-!
# Transactions that may revert

A call either returns a value or is rolled back as a whole, so a transaction is an `Except`
computation: state is passed explicitly and a failed call leaves no trace of it.  The guards
`require` and `assertThat` and the checked integer operations of a fixed width are the only
sources of failure; each one has a lemma that says exactly when it succeeds, and `bind_ok` peels a
sequence of calls apart, so that no proof about a caller unfolds a callee.
-/

namespace Lib

/-- Why a call is rolled back. -/
inductive Revert where
  /-- A failed `require`, with its message. -/
  | reason (message : String)
  /-- A failed `assert`. -/
  | assertion
  /-- A loop that exhausted its iteration bound. -/
  | outOfGas
  deriving DecidableEq, Repr

abbrev Tx := Except Revert

def require (c : Prop) [Decidable c] (message : String) : Tx Unit :=
  if c then .ok () else .error (.reason message)

def assertThat (c : Prop) [Decidable c] : Tx Unit :=
  if c then .ok () else .error .assertion

/-- A failed low-level call surfaces as the caller's own message. -/
def orRevert {α : Type} (x : Tx α) (message : String) : Tx α :=
  match x with
  | .ok a => .ok a
  | .error _ => .error (.reason message)

section Inversion

variable {α β : Type}

theorem bind_ok {x : Tx α} {f : α → Tx β} {b : β} :
    (x >>= f) = .ok b ↔ ∃ a, x = .ok a ∧ f a = .ok b := by
  cases x with
  | error e => simp [bind, Except.bind]
  | ok a => simp [bind, Except.bind]

theorem ok_bind (a : α) (f : α → Tx β) : ((.ok a : Tx α) >>= f) = f a := rfl

theorem pure_ok {a b : α} : (pure a : Tx α) = .ok b ↔ a = b := by
  simp [pure, Except.pure]

theorem require_ok {c : Prop} [Decidable c] {message : String} {u : Unit} :
    require c message = .ok u ↔ c := by
  unfold require
  by_cases h : c <;> simp [h]

theorem assertThat_ok {c : Prop} [Decidable c] {u : Unit} : assertThat c = .ok u ↔ c := by
  unfold assertThat
  by_cases h : c <;> simp [h]

theorem orRevert_ok {x : Tx α} {message : String} {a : α} :
    orRevert x message = .ok a ↔ x = .ok a := by
  cases x <;> simp [orRevert]

/-- The result of a call that may revert, or a default. -/
def okOr (x : Tx α) (default : α) : α := x.toOption.getD default

@[simp]
theorem okOr_ok (a default : α) : okOr (.ok a) default = a := rfl

@[simp]
theorem okOr_error (e : Revert) (default : α) : okOr (.error e) default = default := rfl

/-- A successful result with a decidable property, found by evaluation. -/
theorem exists_ok {x : Tx α} {p : α → Prop} [DecidablePred p]
    (h : x.toOption.any (fun a => decide (p a)) = true) : ∃ a, x = .ok a ∧ p a := by
  cases x with
  | error e => simp [Except.toOption] at h
  | ok a => exact ⟨a, rfl, by simpa [Except.toOption] using h⟩

end Inversion

/-! ## Checked unsigned arithmetic -/

section Checked

variable {width a b c : Nat} {message : String}

def checkedAdd (width : Nat) (message : String) (a b : Nat) : Tx Nat :=
  if a + b < 2 ^ width then .ok (a + b) else .error (.reason message)

def checkedSub (message : String) (a b : Nat) : Tx Nat :=
  if b ≤ a then .ok (a - b) else .error (.reason message)

def checkedMul (width : Nat) (message : String) (a b : Nat) : Tx Nat :=
  if a * b < 2 ^ width then .ok (a * b) else .error (.reason message)

def checkedDiv (message : String) (a b : Nat) : Tx Nat :=
  if 0 < b then .ok (a / b) else .error (.reason message)

theorem checkedAdd_ok :
    checkedAdd width message a b = .ok c ↔ a + b < 2 ^ width ∧ a + b = c := by
  unfold checkedAdd
  by_cases h : a + b < 2 ^ width <;> simp [h]

theorem checkedSub_ok : checkedSub message a b = .ok c ↔ b ≤ a ∧ a - b = c := by
  unfold checkedSub
  by_cases h : b ≤ a <;> simp [h]

theorem checkedMul_ok :
    checkedMul width message a b = .ok c ↔ a * b < 2 ^ width ∧ a * b = c := by
  unfold checkedMul
  by_cases h : a * b < 2 ^ width <;> simp [h]

theorem checkedDiv_ok : checkedDiv message a b = .ok c ↔ 0 < b ∧ a / b = c := by
  unfold checkedDiv
  by_cases h : 0 < b <;> simp [h]

/-- Taking amounts one after another, in any order, from a total that covers them all. -/
theorem foldlM_checkedSub {ι : Type} {f : ι → Nat} {l : List ι} (h : (l.map f).sum ≤ a) :
    l.foldlM (fun total i => checkedSub message total (f i)) a = .ok (a - (l.map f).sum) := by
  induction l generalizing a with
  | nil => rfl
  | cons i rest ih =>
    rw [List.map_cons, List.sum_cons] at h
    rw [List.foldlM_cons, checkedSub_ok.mpr ⟨by omega, rfl⟩]
    change rest.foldlM _ (a - f i) = _
    rw [ih (by omega), List.map_cons, List.sum_cons, Nat.sub_sub]

end Checked

/-! ## Loops that end -/

/-- The call ends, with a result or with a failed check, before its loops exhaust their bound. -/
def Terminates {α : Type} (x : Tx α) : Prop := x ≠ .error .outOfGas

section Terminates

variable {α β : Type} {x : Tx α} {f : α → Tx β}

theorem terminates_ok (a : α) : Terminates (.ok a) := nofun

theorem terminates_pure (a : α) : Terminates (pure a) := nofun

theorem Terminates.bind (hx : Terminates x) (hf : ∀ a, x = .ok a → Terminates (f a)) :
    Terminates (x >>= f) := by
  cases x with
  | error e => exact fun h => hx (by simpa [Bind.bind, Except.bind] using h)
  | ok a => exact hf a rfl

theorem terminates_require (c : Prop) [Decidable c] (message : String) :
    Terminates (require c message) := by
  unfold require
  split <;> nofun

theorem terminates_checkedAdd (width : Nat) (message : String) (a b : Nat) :
    Terminates (checkedAdd width message a b) := by
  unfold checkedAdd
  split <;> nofun

theorem terminates_checkedSub (message : String) (a b : Nat) :
    Terminates (checkedSub message a b) := by
  unfold checkedSub
  split <;> nofun

end Terminates

/-! ## Failures that cannot happen -/

/-- The call does not fail for one of the reasons in `bad`. -/
def Avoids {α : Type} (bad : Revert → Prop) (x : Tx α) : Prop := ∀ e, x = .error e → ¬ bad e

section Avoids

variable {α β : Type} {bad : Revert → Prop} {x : Tx α} {f : α → Tx β} {width a b : Nat}
  {message : String}

theorem avoids_ok (a : α) : Avoids bad (.ok a) := nofun

theorem Avoids.bind (hx : Avoids bad x) (hf : ∀ a, x = .ok a → Avoids bad (f a)) :
    Avoids bad (x >>= f) := by
  cases x with
  | error e => exact fun e' he => hx e' (by simpa [Bind.bind, Except.bind] using he)
  | ok a => exact hf a rfl

theorem avoids_assertThat {c : Prop} [Decidable c] (h : c) : Avoids bad (assertThat c) := by
  rw [assertThat, if_pos h]
  exact avoids_ok ()

theorem avoids_checkedSub (h : b ≤ a) : Avoids bad (checkedSub message a b) := by
  rw [checkedSub, if_pos h]
  exact avoids_ok (a - b)

theorem avoids_checkedDiv (h : 0 < b) : Avoids bad (checkedDiv message a b) := by
  rw [checkedDiv, if_pos h]
  exact avoids_ok (a / b)

theorem avoids_checkedAdd (h : ¬ bad (.reason message)) :
    Avoids bad (checkedAdd width message a b) := by
  unfold checkedAdd
  split
  · exact avoids_ok _
  · rintro _ ⟨⟩
    exact h

theorem avoids_checkedMul (h : ¬ bad (.reason message)) :
    Avoids bad (checkedMul width message a b) := by
  unfold checkedMul
  split
  · exact avoids_ok _
  · rintro _ ⟨⟩
    exact h

/-! A call of several steps is taken apart by rewriting: `simp` leaves the checks that can fail for a
reason in `bad`. -/

@[simp]
theorem avoids_ok_iff (a : α) : Avoids bad (.ok a) ↔ True := iff_true_intro (avoids_ok a)

@[simp]
theorem avoids_pure_iff (a : α) : Avoids bad (pure a : Tx α) ↔ True := avoids_ok_iff a

@[simp]
theorem avoids_error_iff (e : Revert) : Avoids bad (.error e : Tx α) ↔ ¬ bad e := by
  constructor
  · intro h
    exact h e rfl
  · rintro h _ ⟨⟩
    exact h

instance [DecidablePred bad] : (x : Tx α) → Decidable (Avoids bad x)
  | .ok a => .isTrue (avoids_ok a)
  | .error e => decidable_of_iff (¬ bad e) (avoids_error_iff e).symm

@[simp]
theorem avoids_bind_iff :
    Avoids bad (x >>= f) ↔ Avoids bad x ∧ ∀ a, x = .ok a → Avoids bad (f a) := by
  constructor
  · intro h
    cases x with
    | error e =>
      refine ⟨fun e' he => ?_, fun a ha => by cases ha⟩
      cases he
      exact h e rfl
    | ok a =>
      refine ⟨avoids_ok a, fun b hb => ?_⟩
      cases hb
      exact h
  · rintro ⟨hx, hf⟩
    exact hx.bind hf

@[simp]
theorem avoids_map_iff {g : α → β} : Avoids bad (g <$> x) ↔ Avoids bad x := by
  rw [map_eq_pure_bind, avoids_bind_iff]
  simp

@[simp]
theorem avoids_require_iff {c : Prop} [Decidable c] :
    Avoids bad (require c message) ↔ (¬ c → ¬ bad (.reason message)) := by
  unfold require
  split <;> simp [*]

@[simp]
theorem avoids_assertThat_iff {c : Prop} [Decidable c] :
    Avoids bad (assertThat c) ↔ (¬ c → ¬ bad .assertion) := by
  unfold assertThat
  split <;> simp [*]

@[simp]
theorem avoids_checkedAdd_iff :
    Avoids bad (checkedAdd width message a b) ↔ (¬ a + b < 2 ^ width → ¬ bad (.reason message)) := by
  unfold checkedAdd
  split <;> simp [*]

@[simp]
theorem avoids_checkedSub_iff :
    Avoids bad (checkedSub message a b) ↔ (¬ b ≤ a → ¬ bad (.reason message)) := by
  unfold checkedSub
  split <;> simp [*]

@[simp]
theorem avoids_checkedMul_iff :
    Avoids bad (checkedMul width message a b) ↔ (¬ a * b < 2 ^ width → ¬ bad (.reason message)) := by
  unfold checkedMul
  split <;> simp [*]

@[simp]
theorem avoids_checkedDiv_iff :
    Avoids bad (checkedDiv message a b) ↔ (¬ 0 < b → ¬ bad (.reason message)) := by
  unfold checkedDiv
  split <;> simp [*]

/-- The reason of a failed low-level call is lost. -/
@[simp]
theorem avoids_orRevert (h : ¬ bad (.reason message)) : Avoids bad (orRevert x message) := by
  cases x with
  | error e => simpa [orRevert] using h
  | ok a => exact avoids_ok a

@[simp]
theorem avoids_ite_iff {c : Prop} [Decidable c] {y : Tx α} :
    Avoids bad (if c then x else y) ↔ (c → Avoids bad x) ∧ (¬ c → Avoids bad y) := by
  split <;> simp [*]

/-- A call that ends and has no other way to fail succeeds. -/
theorem Terminates.exists_ok (h : Terminates x) (honly : Avoids (fun e => e ≠ .outOfGas) x) :
    ∃ a, x = .ok a := by
  cases x with
  | ok a => exact ⟨a, rfl⟩
  | error e =>
    refine absurd (fun hgas => ?_) (honly e rfl)
    rw [hgas] at h
    exact h rfl

end Avoids

end Lib
