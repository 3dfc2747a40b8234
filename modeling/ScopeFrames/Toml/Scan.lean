import ScopeFrames.Toml.Value

namespace ScopeFrames.Toml

def isBlank (c : Char) : Bool := c = ' ' || c = '\t'

def isText (c : Char) : Bool := c = '\t' || (' ' ≤ c && c ≠ '\x7f')

def skipBlanks (cs : List Char) : List Char := cs.dropWhile isBlank

def newline? : List Char → Option (List Char)
  | '\n' :: rest => some rest
  | '\r' :: '\n' :: rest => some rest
  | _ => none

def endLine (cs : List Char) : Except Fault (List Char) :=
  let after := match skipBlanks cs with
    | '#' :: rest => rest.dropWhile isText
    | rest => rest
  match after with
  | [] => .ok []
  | after =>
    match newline? after with
    | some rest => .ok rest
    | none => refuse .lineEnd after

def skipLines (comment : Bool) : List Char → Except Fault (List Char)
  | '\n' :: rest => skipLines false rest
  | '\r' :: '\n' :: rest => skipLines false rest
  | [] => .ok []
  | c :: rest =>
    if comment then
      if isText c then skipLines true rest else refuse .lineEnd (c :: rest)
    else if isBlank c then skipLines false rest
    else if c = '#' then skipLines true rest
    else .ok (c :: rest)

end ScopeFrames.Toml
