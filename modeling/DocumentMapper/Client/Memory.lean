import DocumentMapper.Client.Basic
import DocumentMapper.Query.Evaluate
import DocumentMapper.Settings

/-!
# The in-memory database

A client whose state is a store.  A query is all or nothing: when its evaluation
fails the store stays as it was, counters included.
-/

namespace DocumentMapper

/-- Evaluates an expression, in no scope, and takes everything back on failure. -/
def Store.query (clock : Clock) (expr : Expr) : Action Value :=
  fun store =>
    match expr.evaluate clock [] store with
    | .ok value after => .ok value after
    | .error error _ => .error error store

def Client.memory (clock : Clock) : Client Store :=
  { query := Store.query clock }

def Store.connect : Option Settings -> Except SettingsFault Store
  | some settings => do
      settings.validate
      pure Store.empty
  | none => throw .noSettings

end DocumentMapper
