import ScopeFrames.Collector

namespace ScopeFrames

inductive LineFormat : Type
  | text
  | json
  deriving DecidableEq

structure Sink where
  format : Option LineFormat
  least : Level
  deriving DecidableEq

def Sink.passes (s : Sink) (e : Event) : Bool := s.format.isSome && s.least.admits e.level

structure FileContext where
  path : String
  id : Nat
  deriving DecidableEq

def Event.stamped (e : Event) : Option FileContext → Event
  | none => e
  | some file => (e.noting "file" file.path).noting "file_id" (toString file.id)

structure Journal where
  sink : Sink
  current : Option FileContext := none
  collector : Collector := {}
  written : Array Event := #[]
  deriving DecidableEq

variable [Limits]

namespace Journal

def collect (j : Journal) (e : Event) : Collector :=
  match j.current with
  | some file => if e.isError || e.isWarning then j.collector.record file.path e else j.collector
  | none => j.collector

def emit (j : Journal) (e : Event) : Journal :=
  let e := e.stamped j.current
  { j with
    collector := j.collect e
    written := if j.sink.passes e then j.written.push e else j.written }

def emitAll (j : Journal) (events : Array Event) : Journal := events.foldl emit j

def within {α : Type} (file : FileContext) (body : Journal → α × Journal) (j : Journal) :
    α × Journal :=
  let previous := j.current
  let (result, after) :=
    body { j with current := some file, collector := j.collector.mention file.path }
  (result, { after with current := previous })

end Journal

/-- To look which file is at work, to tell of an event, or to work on a file and visit more. -/
inductive Visit : Type
  | look
  | tell (e : Event)
  | file (context : FileContext) (inside : List Visit)

inductive Sightings : Type
  | seen (first : Option FileContext) (visits : List (Sightings × Option FileContext))

namespace Visit

mutual

def observe (j : Journal) : Visit → Sightings × Journal
  | .look => (.seen j.current [], j)
  | .tell e => (.seen j.current [], j.emit e)
  | .file context inside =>
    j.within context fun j => let (visits, after) := observeEach j inside
      (.seen j.current visits, after)

def observeEach (j : Journal) : List Visit → List (Sightings × Option FileContext) × Journal
  | [] => ([], j)
  | v :: rest =>
    let (within, after) := v.observe j
    let (visits, last) := observeEach after rest
    ((within, after.current) :: visits, last)

end

def observeAll (j : Journal) (visits : List Visit) : Sightings :=
  .seen j.current (observeEach j visits).1

end Visit

end ScopeFrames
