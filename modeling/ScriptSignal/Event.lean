import ScriptSignal.Signal

/-!
# Reported events

Every event is kept as what happened. Its level and wording are decided here.
-/

namespace ScriptSignal

set_option autoImplicit false

inductive Level
  | warn
  | debug
  | trace
deriving Repr, DecidableEq, Inhabited

namespace Level

def name : Level → String
  | .warn => "WARN"
  | .debug => "DEBUG"
  | .trace => "TRACE"

def rank : Level → Nat
  | .warn => 0
  | .debug => 1
  | .trace => 2

end Level

inductive Event
  | unreferencedRelease (id : ObjectId)
  | unknownRelease (id : ObjectId)
  | unknownDuplicate (id : ObjectId)
  | staleFinalize (key : Key)
  | classDefined (name : String) (classId : ClassId)
  | installed (classId : ClassId) (disconnect : DisconnectMode)
  | constructed (key : Key) (hasLink : Bool)
  | connected (key : Key)
  | disconnected (key : Key)
  | finalized (key : Key) (wasConnected : Bool)
  | collected (count live : Nat)
  | acquired (value : Value)
  | released (value : Value)
  | hostGone (value : Value)
  | disconnecting (key : Key) (token : Int32)
  | unboundFinalize
  | bridgeDropped (remaining : Nat)
  | revived (id : ObjectId) (refs : Nat)
  | reclaimed (id : ObjectId)
  | deferred (pending : Nat)
  | processed (count : Nat)
deriving Repr, DecidableEq

namespace Event

def level : Event → Level
  | .unreferencedRelease _ | .unknownRelease _ | .unknownDuplicate _ | .staleFinalize _ => .warn
  | .classDefined _ _ | .installed _ _ | .constructed _ _ | .connected _ | .disconnected _
  | .finalized _ _ | .collected _ _ => .debug
  | .acquired _ | .released _ | .hostGone _ | .disconnecting _ _ | .unboundFinalize
  | .bridgeDropped _ | .revived _ _ | .reclaimed _ | .deferred _ | .processed _ => .trace

def message : Event → String
  | .unreferencedRelease id => "release of object with no references id=" ++ id.label
  | .unknownRelease id => "release of unknown object id=" ++ id.label
  | .unknownDuplicate id => "dup of unknown object id=" ++ id.label
  | .staleFinalize key => "finalize with stale Signal key key=" ++ key.text
  | .classDefined name classId => "class defined class=" ++ name ++ " id=" ++ classId.label
  | .installed classId disconnect =>
      "Signal class installed class_id=" ++ classId.label ++ " disconnect=" ++ disconnect.name
  | .constructed key hasLink =>
      "Signal constructed key=" ++ key.text ++ " has_link=" ++ toString hasLink
  | .connected key => "Signal connected key=" ++ key.text
  | .disconnected key => "Signal disconnected key=" ++ key.text
  | .finalized key wasConnected =>
      "Signal finalized key=" ++ key.text ++ " connected=" ++ toString wasConnected
  | .collected count live =>
      "gc cycle reclaimed=" ++ toString count ++ " live=" ++ toString live
  | .acquired value => "acquired strong reference value=" ++ value.text
  | .released value => "released strong reference value=" ++ value.text
  | .hostGone value =>
      "host gone, strong reference dropped without release value=" ++ value.text
  | .disconnecting key token =>
      "disconnect key=" ++ key.text ++ " token=" ++ toString token.toInt
  | .unboundFinalize => "finalize on unbound Signal handle"
  | .bridgeDropped remaining =>
      "Signal bridge dropped with live states remaining=" ++ toString remaining
  | .revived id refs =>
      "skipping reclaim of revived object id=" ++ id.label ++ " refs=" ++ toString refs
  | .reclaimed id => "Reclaimed object " ++ id.label
  | .deferred pending => "Deferred finalization (pending: " ++ toString pending ++ ")"
  | .processed count => "Processed " ++ toString count ++ " deferred finalizations"

def text (event : Event) : String := event.level.name ++ " " ++ event.message

def shownAt (event : Event) (asked : Level) : Bool := event.level.rank ≤ asked.rank

end Event

end ScriptSignal
