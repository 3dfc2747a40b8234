import ScopeFrames.Toml.Number
import ScopeFrames.Toml.Table

/-!
The reader of TOML documents.  Every loop in it takes at least one character a round, so that the
length of the text is fuel enough.
-/

namespace ScopeFrames.Toml

def isBareKeyChar (c : Char) : Bool := c.isAlphanum || c = '-' || c = '_'

def maxDepth : Nat := 79

def simpleKey (fuel : Nat) : List Char → Except Fault (String × List Char)
  | '"' :: rest => line fuel '"' rest
  | '\'' :: rest => line fuel '\'' rest
  | cs =>
    match cs.span isBareKeyChar with
    | ([], _) => refuse .badKey cs
    | (key, rest) => .ok (String.ofList key, rest)

def keyParts (fuel : Nat) :
    Nat → List String → List Char → Except Fault (List String × List Char)
  | 0, _, cs => refuse .tooDeep cs
  | depth + 1, parts, cs =>
    match simpleKey fuel (skipBlanks cs) with
    | .error e => .error e
    | .ok (part, rest) =>
      match skipBlanks rest with
      | '.' :: rest => keyParts fuel depth (part :: parts) rest
      | rest => .ok (part :: parts, rest)

structure Key where
  path : List String
  last : String

def key (fuel : Nat) (cs : List Char) : Except Fault (Key × List Char) :=
  match keyParts fuel maxDepth [] cs with
  | .error e => .error e
  | .ok ([], rest) => refuse .badKey rest
  | .ok (last :: above, rest) => .ok (⟨above.reverse, last⟩, rest)

def pair (fuel : Nat) (value : List Char → Except Fault (Value × List Char)) (cs : List Char) :
    Except Fault (Key × Value × List Char) :=
  match key fuel cs with
  | .error e => .error e
  | .ok (key, '=' :: rest) =>
    match value (skipBlanks rest) with
    | .error e => .error e
    | .ok (v, rest) => .ok (key, v, rest)
  | .ok (_, rest) => refuse .missingEquals rest

def arrayItems (value : List Char → Except Fault (Value × List Char)) :
    Nat → List Value → List Char → Except Fault (Value × List Char)
  | 0, _, cs => refuse .unclosedArray cs
  | fuel + 1, items, cs =>
    match skipLines false cs with
    | .error e => .error e
    | .ok (']' :: rest) => .ok (.array items.reverse, rest)
    | .ok cs =>
      match value cs with
      | .error e => .error e
      | .ok (v, rest) =>
        match skipLines false rest with
        | .error e => .error e
        | .ok (',' :: rest) => arrayItems value fuel (v :: items) rest
        | .ok (']' :: rest) => .ok (.array (v :: items).reverse, rest)
        | .ok rest => refuse .unclosedArray rest

def inlinePairs (keys : Nat) (value : List Char → Except Fault (Value × List Char)) :
    Nat → Entries → List Char → Except Fault (Value × List Char)
  | 0, _, cs => refuse .unclosedTable cs
  | fuel + 1, entries, cs =>
    match pair keys value cs with
    | .error e => .error e
    | .ok (key, v, rest) =>
      match entries.set key.path key.last v .inline with
      | .error cause => refuse cause rest
      | .ok entries =>
        match skipBlanks rest with
        | ',' :: rest => inlinePairs keys value fuel entries rest
        | '\x7d' :: rest => .ok (.table .inline entries, rest)
        | rest => refuse .unclosedTable rest

def inlineTable (fuel : Nat) (value : List Char → Except Fault (Value × List Char))
    (cs : List Char) : Except Fault (Value × List Char) :=
  match skipBlanks cs with
  | '\x7d' :: rest => .ok (.table .inline [], rest)
  | cs => inlinePairs fuel value fuel [] cs

def scalar (fuel : Nat) (cs : List Char) : Except Fault (Value × List Char) :=
  match cs with
  | '"' :: rest => (string fuel '"' rest).map fun (s, rest) => (.string s, rest)
  | '\'' :: rest => (string fuel '\'' rest).map fun (s, rest) => (.string s, rest)
  | 't' :: 'r' :: 'u' :: 'e' :: rest => .ok (.boolean true, rest)
  | 'f' :: 'a' :: 'l' :: 's' :: 'e' :: rest => .ok (.boolean false, rest)
  | 'i' :: 'n' :: 'f' :: rest => .ok (.float, rest)
  | 'n' :: 'a' :: 'n' :: rest => .ok (.float, rest)
  | c :: _ =>
    if c.isDigit || c = '+' || c = '-' then
      match time? cs with
      | some rest => .ok (.time, rest)
      | none => number cs
    else refuse .badValue cs
  | [] => refuse .badValue []

def value (fuel : Nat) : Nat → List Char → Except Fault (Value × List Char)
  | 0, '[' :: rest => refuse .tooDeep rest
  | 0, '\x7b' :: rest => refuse .tooDeep rest
  | depth + 1, '[' :: rest => arrayItems (value fuel depth) fuel [] rest
  | depth + 1, '\x7b' :: rest => inlineTable fuel (value fuel depth) rest
  | _, cs => scalar fuel cs

def revised (result : Except Cause Draft) (left : List Char) : Except Fault Draft :=
  match result with
  | .ok d => .ok d
  | .error cause => refuse cause left

def header (fuel : Nat) (d : Draft) (cs : List Char) : Except Fault (Draft × List Char) := do
  let (key, rest) ← key fuel cs
  match rest with
  | ']' :: rest => return (← revised (d.beginTable key.path key.last) rest, ← endLine rest)
  | rest => refuse .unclosedHeader rest

def elementHeader (fuel : Nat) (d : Draft) (cs : List Char) : Except Fault (Draft × List Char) := do
  let (key, rest) ← key fuel cs
  match rest with
  | ']' :: ']' :: rest => return (← revised (d.beginElement key.path key.last) rest, ← endLine rest)
  | rest => refuse .unclosedHeader rest

def assignment (fuel : Nat) (d : Draft) (cs : List Char) : Except Fault (Draft × List Char) := do
  let (key, v, rest) ← pair fuel (value fuel maxDepth) cs
  return (← revised (d.set key.path key.last v) rest, ← endLine rest)

def statement (fuel : Nat) (d : Draft) : List Char → Except Fault (Draft × List Char)
  | '[' :: '[' :: rest => elementHeader fuel d rest
  | '[' :: rest => header fuel d rest
  | cs => assignment fuel d cs

def lines (fuel : Nat) : Nat → Draft → List Char → Except Fault Draft
  | 0, _, cs => refuse .lineEnd cs
  | rounds + 1, d, cs =>
    match skipLines false cs with
    | .error e => .error e
    | .ok [] => .ok d
    | .ok cs =>
      match statement fuel d cs with
      | .error e => .error e
      | .ok (d, rest) => lines fuel rounds d rest

def document (text : List Char) : Except Fault Entries := do
  let text := match text with
    | '\ufeff' :: rest => rest
    | text => text
  let fuel := text.length + 1
  let d ← lines fuel fuel {} text
  match d.finish with
  | .ok entries => return entries
  | .error cause => refuse cause []

end ScopeFrames.Toml
