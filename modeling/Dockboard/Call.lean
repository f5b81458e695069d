import Dockboard.Operation
import Dockboard.Resource.Row
import Dockboard.Stream.Feed
import Dockboard.View

set_option autoImplicit false

/-! # What is asked of the daemon

A call has one answer, whose type belongs to the call. A subscription has a feed of answers.
Whatever gives these answers is a daemon to the rest of the library, even a script that stands in
for one. A daemon may have effects of its own, so it answers in a monad.
-/

namespace Dockboard

open Dockboard.Stream

/-- Where a log comes from. -/
inductive LogSource where
  | container (id : String)
  | service (id : String)
  deriving DecidableEq, Repr, Inhabited

/-- A wish for a log. -/
structure LogRequest where
  source : LogSource
  /-- From when on, in unix seconds; 0 for the beginning. -/
  since : Int := 0
  /-- How many of the lines that are there already. -/
  tail : Nat
  /-- Whether lines that are written later are wished for, too. -/
  follow : Bool := true
  deriving DecidableEq, Repr, Inhabited

/-- A question with one answer, of the type it is indexed by. -/
inductive Call : Type → Type where
  | summary : Call DaemonSummary
  /-- What the daemon says of itself, as a JSON document. -/
  | info : Call String
  /-- The containers, those not running only if `all` are wished for. -/
  | listContainers (all : Bool) : Call (List Container)
  | listImages : Call (List Image)
  | listNetworks : Call (List Network)
  | listVolumes : Call (List Volume)
  | diskUsage : Call DiskUsage
  | listNodes : Call (List Node)
  | listServices : Call (List Service)
  | tasksOf (scope : TaskScope) : Call (List Task)
  /-- What is known of one object, as a JSON document. -/
  | inspect (kind : InspectKind) (id : String) : Call String
  /-- The answer to an operation is a detail of what it did. -/
  | execute (op : Operation) : Call String

/-- Something that answers calls and subscriptions. -/
structure Daemon (m : Type → Type) where
  ask {α : Type} (call : Call α) : m (Except Failure α)
  /-- The bytes of a log, in frames or plain. -/
  logs (request : LogRequest) : m (Feed (List UInt8))
  /-- What a container consumes, over and over. -/
  stats (id : String) : m (Feed Sample)
  /-- The changes that happen from now on. -/
  events : m (Feed DaemonEvent)

end Dockboard
