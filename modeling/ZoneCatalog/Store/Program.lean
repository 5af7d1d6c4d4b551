import ZoneCatalog.Clock.Basic
import ZoneCatalog.Notice
import ZoneCatalog.Store.Request

/-! Work that has to ask a store, written down as what it asks and how it goes on with the answer.
Nothing is said about when the answers come or what they are, so the same work can be run against
any store, one request at a time. -/
namespace ZoneCatalog

/-- Work with a result in `α`. -/
inductive Program (α : Type) where
  | done (result : α)
  | ask (request : StoreRequest) (next : request.Result → Program α)
  | time (next : Seconds → Program α)
  | report (notice : Notice) (rest : Program α)

namespace Program

variable {α β : Type}

def bind (p : Program α) (f : α → Program β) : Program β :=
  match p with
  | .done a => f a
  | .ask request next => .ask request fun result => (next result).bind f
  | .time next => .time fun now => (next now).bind f
  | .report notice rest => .report notice (rest.bind f)

instance : Monad Program where
  pure := done
  bind := bind

def now : Program Seconds := .time .done

def notify (notice : Notice) : Program Unit := .report notice (.done ())

end Program

abbrev Fallible (ε α : Type) := ExceptT ε Program α

namespace Fallible

/-- Asks the store, failing as the store does. -/
def request {ε : Type} (wrap : StoreError → ε) (r : StoreRequest) : Fallible ε r.Reply :=
  ExceptT.mk (.ask r fun result => .done (result.mapError wrap))

def ofExcept {ε α : Type} (result : Except ε α) : Fallible ε α := ExceptT.mk (.done result)

end Fallible
end ZoneCatalog
