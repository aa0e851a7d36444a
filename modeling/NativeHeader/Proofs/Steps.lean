/-! Steps that may fail and that keep what they did when they do.

The state stands outside the failure, so a step always ends in a state. Whatever a step ends
with, that state is related to the first one (`Leaves`) if the relation holds of each of its
parts. -/
namespace NativeHeader

section
variable {ε σ α β : Type}

theorem run_bind (x : ExceptT ε (StateM σ) α) (f : α → ExceptT ε (StateM σ) β) (s : σ) :
    (x >>= f).run.run s =
      match x.run.run s with
      | (.ok a, after) => (f a).run.run after
      | (.error e, after) => (.error e, after) := by
  show (match x s with | (r, after) => ExceptT.bindCont f r after) = _
  show _ = (match x s with
    | (.ok a, after) => (f a).run.run after
    | (.error e, after) => (.error e, after))
  rcases x s with ⟨_ | _, after⟩ <;> rfl

theorem run_tryCatch (x : ExceptT ε (StateM σ) α) (handle : ε → ExceptT ε (StateM σ) α) (s : σ) :
    (tryCatch x handle).run.run s =
      match x.run.run s with
      | (.ok a, after) => (.ok a, after)
      | (.error e, after) => (handle e).run.run after := by
  have hrun : (tryCatch x handle).run.run s =
      (fun r : Except ε α × σ => match r.1 with
        | .ok a => (Except.ok a, r.2)
        | .error e => (handle e).run.run r.2) (x.run.run s) := by
    show (match x s with | (r, after) => ((match r with
      | .ok a => pure (Except.ok a)
      | .error e => handle e) : StateM σ (Except ε α)) after) = _
    show _ = (fun r : Except ε α × σ => match r.1 with
        | .ok a => (Except.ok a, r.2)
        | .error e => (handle e).run.run r.2) (x s)
    rcases x s with ⟨_ | _, after⟩ <;> rfl
  rw [hrun]
  rcases x.run.run s with ⟨_ | _, after⟩ <;> rfl

/-- The state in which the step ends is related to the one in which it began. -/
def Leaves (R : σ → σ → Prop) (x : ExceptT ε (StateM σ) α) : Prop :=
  ∀ s, R s (x.run.run s).2

namespace Leaves
variable {R : σ → σ → Prop} {x : ExceptT ε (StateM σ) α}

theorem bind (htrans : ∀ a b c, R a b → R b c → R a c) {f : α → ExceptT ε (StateM σ) β}
    (hx : Leaves R x) (hf : ∀ a, Leaves R (f a)) : Leaves R (x >>= f) := by
  intro s
  have hfirst := hx s
  rw [run_bind]
  cases hrun : x.run.run s with
  | mk result after =>
    rw [hrun] at hfirst
    cases result with
    | ok a => exact htrans _ _ _ hfirst (hf a after)
    | error e => exact hfirst

theorem tryCatch (htrans : ∀ a b c, R a b → R b c → R a c) {handle : ε → ExceptT ε (StateM σ) α}
    (hx : Leaves R x) (hhandle : ∀ e, Leaves R (handle e)) : Leaves R (tryCatch x handle) := by
  intro s
  have hfirst := hx s
  rw [run_tryCatch]
  cases hrun : x.run.run s with
  | mk result after =>
    rw [hrun] at hfirst
    cases result with
    | ok a => exact hfirst
    | error e => exact htrans _ _ _ hfirst (hhandle e after)

end Leaves

end

end NativeHeader
