import LayeredAnnotations.Log.Sink

namespace LayeredAnnotations

universe u

-- A result together with what was logged on the way to it.
structure Logged (α : Type) where
  value : α
  log : List Emission
deriving Repr

namespace Logged

instance : Monad Logged where
  pure a := ⟨a, []⟩
  bind x f :=
    let y := f x.value
    ⟨y.value, x.log ++ y.log⟩

def tell (es : List Emission) : Logged Unit := ⟨(), es⟩

-- Asks one after another until there is an answer. Nobody behind it is asked.
def first {α : Type u} {β : Type} (ask : α → Logged (Option β)) : List α → Logged (Option β)
  | [] => pure none
  | a :: rest => do
    match ← ask a with
    | some b => pure (some b)
    | none => first ask rest

-- Asks everybody and joins the answers.
def concat {α : Type u} {β : Type} (ask : α → Logged (List β)) : List α → Logged (List β)
  | [] => pure []
  | a :: rest => do
    let answer ← ask a
    let others ← concat ask rest
    pure (answer ++ others)

@[simp] theorem value_pure {α : Type} (a : α) : (pure a : Logged α).value = a := rfl

@[simp] theorem log_pure {α : Type} (a : α) : (pure a : Logged α).log = [] := rfl

@[simp] theorem value_bind {α β : Type} (x : Logged α) (f : α → Logged β) :
    (x >>= f).value = (f x.value).value := rfl

@[simp] theorem log_bind {α β : Type} (x : Logged α) (f : α → Logged β) :
    (x >>= f).log = x.log ++ (f x.value).log := rfl

theorem value_first {α : Type u} {β : Type} (ask : α → Logged (Option β)) (as : List α) :
    (first ask as).value = as.findSome? fun a => (ask a).value := by
  induction as with
  | nil => rfl
  | cons a rest ih =>
    rw [first, value_bind, List.findSome?_cons]
    cases (ask a).value with
    | none => exact ih
    | some b => rfl

theorem value_concat {α : Type u} {β : Type} (ask : α → Logged (List β)) (as : List α) :
    (concat ask as).value = as.flatMap fun a => (ask a).value := by
  induction as with
  | nil => rfl
  | cons a rest ih => simp [concat, ih]

theorem log_concat {α : Type u} {β : Type} (ask : α → Logged (List β)) (as : List α) :
    (concat ask as).log = as.flatMap fun a => (ask a).log := by
  induction as with
  | nil => rfl
  | cons a rest ih => simp [concat, ih]

end Logged

end LayeredAnnotations
