import ScopeFrames.Table

namespace ScopeFrames

def dash : Option String → String := (·.getD "-")

def Entry.fields (e : Entry) : List (String × String) :=
  [ ("Type", s!"{e.category.text} ({e.category.number})"),
    ("Start Index", dash (e.bounds.map (Word.text ·.start))),
    ("End Index", dash (e.bounds.map (Word.text ·.stop))),
    ("Base Type", dash (e.base.map (·.text))),
    ("Offset", dash (e.offset.map Word.text)),
    ("Label", dash (e.label.map (·.text))),
    ("Static Nesting Level", dash (e.level.map toString)),
    ("Frame Size", dash (e.frameSize.map Word.text)) ]

def Entry.listing (e : Entry) : String :=
  s!"Symbol: {e.name}\n    " ++
    " | ".intercalate (e.fields.map fun (key, value) => s!"{key}: {value}")

namespace Listing

def header (level : Nat) (owner : Option String) (size : Nat) (frameSize : Option Int64) : String :=
  let frame := match frameSize with
    | some f => s!", frame size: {Word.text f}"
    | none => ""
  s!"Scope level {level} (owner: {dash owner}, entries: {size}{frame})\n"

def entries (es : List Entry) : String :=
  String.join (es.map fun e => s!"  {e.listing}\n")

end Listing

def Scope.listing (s : Scope) : String :=
  Listing.header s.level s.owner s.size none ++ Listing.entries s.entries.toList

def ClosedScope.listing (s : ClosedScope) : String :=
  Listing.header s.level s.owner s.size (some s.frameSize) ++ Listing.entries s.entries

def Table.listing [Limits] (t : Table) : String :=
  let noun := if t.entryCount = 1 then "entry" else "entries"
  s!"Symbol table: {t.depth} scope(s), {t.entryCount} {noun}\n"
    ++ String.join (t.outermostFirst.map Scope.listing)

end ScopeFrames
