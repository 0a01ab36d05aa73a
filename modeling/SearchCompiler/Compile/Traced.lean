import SearchCompiler.Compile.Error
import SearchCompiler.Name.Book

/-!
# Traced compilation

Compiling asks for names and gives warnings on its way. Both are recorded up to the point where
compiling ends or fails; what was recorded never changes what is compiled.
-/

namespace SearchCompiler.Compile

/-- Something recorded while compiling. -/
inductive Event where
  /-- A name was asked for. -/
  | named (entry : Name.Entry)
  | warned (warning : Warning)
deriving DecidableEq, Repr

/-- What compiling yields, with its record. -/
structure Traced (α : Type) where
  outcome : Except Error α
  events : List Event

namespace Traced

variable {α β : Type}

def ofExcept (outcome : Except Error α) : Traced α := ⟨outcome, []⟩

/-- Goes on with a result, unless there is none. -/
def andThen (t : Traced α) (f : α → Traced β) : Traced β :=
  match t.outcome with
  | .error e => ⟨.error e, t.events⟩
  | .ok a => ⟨(f a).outcome, t.events ++ (f a).events⟩

instance : Monad Traced where
  pure a := ofExcept (.ok a)
  bind := andThen

instance : MonadExceptOf Error Traced where
  throw e := ofExcept (.error e)
  tryCatch t handle :=
    match t.outcome with
    | .ok _ => t
    | .error e => ⟨(handle e).outcome, t.events ++ (handle e).events⟩

def warn (warning : Warning) : Traced Unit := ⟨.ok (), [.warned warning]⟩

/-- The names that were asked for, in order. -/
def names (t : Traced α) : List Name.Entry :=
  t.events.filterMap fun
    | .named entry => some entry
    | .warned _ => none

def warnings (t : Traced α) : List Warning :=
  t.events.filterMap fun
    | .named _ => none
    | .warned w => some w

@[simp] theorem outcome_pure (a : α) : (pure a : Traced α).outcome = .ok a := rfl

@[simp] theorem outcome_ofExcept (outcome : Except Error α) : (ofExcept outcome).outcome = outcome :=
  rfl

/-- The result of two steps does not depend on what they record. -/
@[simp] theorem outcome_bind (t : Traced α) (f : α → Traced β) :
    (t >>= f).outcome = t.outcome >>= fun a => (f a).outcome := by
  rcases t with ⟨outcome | outcome, events⟩ <;> rfl

end Traced

end SearchCompiler.Compile
