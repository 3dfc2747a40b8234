import ScopeFrames.Toml.Scan

namespace ScopeFrames.Toml

def hexValue? (c : Char) : Option Nat :=
  if c.isDigit then some (c.toNat - '0'.toNat)
  else if 'a' ≤ c && c ≤ 'f' then some (c.toNat - 'a'.toNat + 10)
  else if 'A' ≤ c && c ≤ 'F' then some (c.toNat - 'A'.toNat + 10)
  else none

def scalar? (digits : List Char) : Option Char := do
  let values ← digits.mapM hexValue?
  let point := values.foldl (fun n d => n * 16 + d) 0
  if point.isValidChar then some (Char.ofNat point) else none

def codePoint (width : Nat) (cs : List Char) : Except Fault (Char × List Char) :=
  match scalar? (cs.take width) with
  | some c =>
    if (cs.take width).length = width then .ok (c, cs.drop width) else refuse .badEscape cs
  | none => refuse .badEscape cs

def escape : List Char → Except Fault (Char × List Char)
  | 'b' :: rest => .ok ('\x08', rest)
  | 't' :: rest => .ok ('\t', rest)
  | 'n' :: rest => .ok ('\n', rest)
  | 'f' :: rest => .ok ('\x0c', rest)
  | 'r' :: rest => .ok ('\r', rest)
  | '"' :: rest => .ok ('"', rest)
  | '\\' :: rest => .ok ('\\', rest)
  | 'u' :: rest => codePoint 4 rest
  | 'U' :: rest => codePoint 8 rest
  | cs => refuse .badEscape cs

def skipBlankLines : List Char → List Char
  | ' ' :: rest => skipBlankLines rest
  | '\t' :: rest => skipBlankLines rest
  | '\n' :: rest => skipBlankLines rest
  | '\r' :: '\n' :: rest => skipBlankLines rest
  | cs => cs

def joined? (cs : List Char) : Option (List Char) :=
  (newline? (skipBlanks cs)).map skipBlankLines

/-- The end of a string in triple quotes.  Up to two more quotes belong to the text. -/
def closeTriple (quote : Char) (text : List Char) (rest : List Char) : String × List Char :=
  match rest with
  | a :: b :: after =>
    if a = quote && b = quote then (String.ofList (quote :: quote :: text).reverse, after)
    else if a = quote then (String.ofList (quote :: text).reverse, b :: after)
    else (String.ofList text.reverse, rest)
  | [a] =>
    if a = quote then (String.ofList (quote :: text).reverse, [])
    else (String.ofList text.reverse, rest)
  | [] => (String.ofList text.reverse, [])

def quoted (quote : Char) (triple : Bool) :
    Nat → List Char → List Char → Except Fault (String × List Char)
  | 0, _, cs => refuse .unclosedString cs
  | _ + 1, _, [] => refuse .unclosedString []
  | fuel + 1, text, c :: rest =>
    if c = quote then
      if !triple then .ok (String.ofList text.reverse, rest)
      else
        match rest with
        | a :: b :: after =>
          if a = quote && b = quote then .ok (closeTriple quote text after)
          else quoted quote triple fuel (c :: text) rest
        | _ => refuse .unclosedString rest
    else if c = '\\' && quote = '"' then
      match if triple then joined? rest else none with
      | some after => quoted quote triple fuel text after
      | none =>
        match escape rest with
        | .error e => .error e
        | .ok (escaped, after) => quoted quote triple fuel (escaped :: text) after
    else if isText c then quoted quote triple fuel (c :: text) rest
    else
      match if triple then newline? (c :: rest) else none with
      | some after => quoted quote triple fuel ('\n' :: text) after
      | none => refuse .unclosedString (c :: rest)

def line (fuel : Nat) (quote : Char) (cs : List Char) : Except Fault (String × List Char) :=
  quoted quote false fuel [] cs

def string (fuel : Nat) (quote : Char) : List Char → Except Fault (String × List Char)
  | a :: b :: rest =>
    if a = quote && b = quote then quoted quote true fuel [] ((newline? rest).getD rest)
    else line fuel quote (a :: b :: rest)
  | cs => line fuel quote cs

end ScopeFrames.Toml
