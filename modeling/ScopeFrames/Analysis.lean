import ScopeFrames.Diagnostic

/-!
An analysis in progress: it drives a table, attaches places to what the table refuses, and goes on,
so that one bad declaration does not end it.
-/

namespace ScopeFrames

structure Preferences where
  warnOnShadowing : Bool := false
  logTransitions : Bool := true
  stopOnFirstError : Bool := false
  deriving DecidableEq

inductive Opened : Type
  | program
  | procedure (name : String)
  | block
  /-- Stands for a scope that could not be opened, so that ends stay balanced. -/
  | placeholder
  deriving DecidableEq

namespace Opened

def text : Opened → String
  | .program => "Program"
  | .procedure name => s!"Procedure(\"{name}\")"
  | .block => "Block"
  | .placeholder => "Placeholder"

end Opened

variable [Limits]

structure Analysis where
  table : Table := {}
  preferences : Preferences := {}
  opened : List Opened := []
  closed : Array ClosedScope := #[]
  diagnostics : Array Diagnostic := #[]
  declared : Nat := 0
  resolved : Nat := 0
  unresolved : Nat := 0
  halted : Bool := false
  events : Array Event := #[]
  deriving DecidableEq

namespace Analysis

def start (policy : Policy) (preferences : Preferences) : Analysis :=
  { table := { policy }, preferences }

def atProgram (a : Analysis) : Bool := a.opened = [.program]

def note (a : Analysis) (e : Event) : Analysis := { a with events := a.events.push e }

def noteTransition (a : Analysis) (action : String) (id : Option ScopeId) : Analysis :=
  if a.preferences.logTransitions then
    a.note <| ((Event.debug action).noting "scope_id" (dash (id.map (·.text)))).noting
      "depth" (dash (a.table.level?.map toString))
  else
    a

theorem noteTransition_eq {a : Analysis} (action : String) (id : Option ScopeId) :
    a.noteTransition action id = { a with events := (a.noteTransition action id).events } := by
  unfold noteTransition
  split <;> rfl

def report (a : Analysis) (d : Diagnostic) : Analysis :=
  let a := a.note d.event
  { a with
    diagnostics := a.diagnostics.push d
    halted := a.halted || d.isError && a.preferences.stopOnFirstError }

def refuse (a : Analysis) (e : TableError) (span : Span) : Analysis :=
  let a := a.report (.refused e span a.table.level?)
  { a with halted := a.halted || e.halts }

def opening (a : Analysis) (o : Opened) : Analysis := { a with opened := o :: a.opened }

def beginProgram (a : Analysis) (name : String) (span : Span) : Option ScopeId × Analysis :=
  if !a.opened.isEmpty then
    let e := TableError.invalidScopeOwner name "a program scope is already open"
    (none, (a.refuse e span).opening .placeholder)
  else
    match a.table.enter with
    | (.error e, table) => (none, ({ a with table }.refuse e span).opening .placeholder)
    | (.ok id, table) =>
      let a := ({ a with table }.opening .program).noteTransition "Entered program scope" (some id)
      match a.table.declare (.program name) with
      | (.error e, table) => (some id, { a with table }.refuse e span)
      | (.ok (), table) => (some id, { a with table, declared := a.declared + 1 })

def opened? (a : Analysis) (entered : Except TableError ScopeId × Table) (o : Opened)
    (action : String) (span : Span) : Option ScopeId × Analysis :=
  match entered with
  | (.ok id, table) =>
    (some id, ({ a with table }.opening o).noteTransition action (some id))
  | (.error e, table) => (none, ({ a with table }.refuse e span).opening .placeholder)

/-- Declares a procedure and opens its scope.  Where the declaration is refused, the body gets a
block of its own. -/
def beginProcedure (a : Analysis) (name : String) (span : Span) : Option ScopeId × Analysis :=
  match a.table.declare (.procedure name) with
  | (.ok (), table) =>
    let a := { a with table, declared := a.declared + 1 }
    a.opened? (a.table.enterProcedure name) (.procedure name) "Entered procedure scope" span
  | (.error e, table) =>
    let a := { a with table }.refuse e span
    a.opened? a.table.enter .block "Entered procedure scope" span

def beginBlock (a : Analysis) (span : Span) : Option ScopeId × Analysis :=
  a.opened? a.table.enter .block "Entered block scope" span

/-- Closes the innermost procedure or block.  A scope that cannot be laid out is dropped. -/
def endScope (a : Analysis) (span : Span) : Option ClosedScope × Analysis :=
  match a.opened with
  | .placeholder :: outer => (none, { a with opened := outer })
  | [] | .program :: _ =>
    match a.table.exit with
    | (.ok _, table) => (none, { a with table })
    | (.error e, table) => (none, { a with table }.refuse e span)
  | kind :: outer =>
    let a := { a with opened := outer }
    match a.table.exit with
    | (.ok scope, table) =>
      let told := ((Event.milestone .scopeClosed "Scope closed and laid out").noting
        "level" (toString scope.level)).noting "owner" (dash scope.owner)
      let a := { a with table }.note (told.noting "frame_size" (Word.text scope.frameSize))
      (some scope, { a with closed := a.closed.push scope }.noteTransition "Exited scope" none)
    | (.error e, table) =>
      let a := { a with table }.refuse e span
      match a.table.abandon with
      | (.ok _, table) => (none, { a with table })
      | (.error e, table) =>
        let told := Event.error e.code "Failed to discard unclosable scope"
        (none, { a with table }.note (told.noting "owner" s!"Some({kind.text})"))

def endProgram (a : Analysis) (span : Span) : Option ClosedScope × Analysis :=
  match a.table.finish with
  | (.ok scope, table) =>
    let told := ((Event.milestone .programClosed "Program scope closed and laid out").noting
      "owner" (dash scope.owner)).noting "frame_size" (Word.text scope.frameSize)
    let a := { a with table, opened := [] }.note (told.noting "entries" (toString scope.size))
    (some scope, { a with closed := a.closed.push scope })
  | (.error e, table) => (none, { a with table }.refuse e span)

def declare (a : Analysis) (d : Declaration) (span : Span) : Bool × Analysis :=
  let outer := (a.table.lookup? d.name).map (·.2)
  match d.entry with
  | .error e => (false, a.refuse e span)
  | .ok entry =>
    match a.table.declare entry with
    | (.error e, table) => (false, { a with table }.refuse e span)
    | (.ok (), table) =>
      let a := { a with table, declared := a.declared + 1 }
      match outer with
      | some outer =>
        if a.preferences.warnOnShadowing then
          (true, a.report (.shadowed d.name outer span a.table.level?))
        else
          (true, a)
      | none => (true, a)

def resolve (a : Analysis) (name : String) (span : Span) : Option Resolution × Analysis :=
  match a.table.lookup? name with
  | some (e, depth) => (some (.of e depth), { a with resolved := a.resolved + 1 })
  | none =>
    let a := { a with unresolved := a.unresolved + 1 }
    (none, a.report (.undeclared name span a.table.level?))

def summarize (a : Analysis) : Report :=
  { scopes := a.closed.toList
    diagnostics := a.diagnostics.toList
    declared := a.declared
    resolved := a.resolved
    unresolved := a.unresolved }

end Analysis

end ScopeFrames
