import ScopeFrames.Toml.Text

namespace ScopeFrames.Toml

/-- More digits behind those in `digits`, which are last first.  An underscore must stand between
two digits. -/
def moreDigits (isDigit : Char → Bool) :
    List Char → List Char → Option (List Char × List Char)
  | digits, '_' :: c :: rest => if isDigit c then moreDigits isDigit (c :: digits) rest else none
  | digits, c :: rest =>
    if isDigit c then moreDigits isDigit (c :: digits) rest
    else if c = '_' then none
    else some (digits.reverse, c :: rest)
  | digits, [] => some (digits.reverse, [])

def digits? (isDigit : Char → Bool) : List Char → Option (List Char × List Char)
  | c :: rest => if isDigit c then moreDigits isDigit [c] rest else none
  | [] => none

def whole? : List Char → Option (List Char × List Char)
  | '0' :: rest => some (['0'], rest)
  | cs => digits? Char.isDigit cs

def numeral (base : Nat) (digits : List Char) : Nat :=
  digits.foldl (fun n c => n * base + (hexValue? c).getD 0) 0

def isHexDigit (c : Char) : Bool := (hexValue? c).isSome
def isOctalDigit (c : Char) : Bool := '0' ≤ c && c ≤ '7'
def isBinaryDigit (c : Char) : Bool := c = '0' || c = '1'

def integer (base : Nat) (negative : Bool) (digits : List Char) (rest : List Char) :
    Except Fault (Value × List Char) :=
  let significant := digits.dropWhile (· = '0')
  if 64 < significant.length then refuse .numberRange rest
  else
    let n : Int := numeral base significant
    match Word.ofInt? (if negative then -n else n) with
    | some w => .ok (.integer w, rest)
    | none => refuse .numberRange rest

def radix (base : Nat) (isDigit : Char → Bool) (cs : List Char) :
    Except Fault (Value × List Char) :=
  match digits? isDigit cs with
  | some (digits, rest) => integer base false digits rest
  | none => refuse .badNumber cs

/-- The least number that is too large for a double: half a step above the largest double. -/
def doubleLimit : Nat := Nat.pow 2 1024 - Nat.pow 2 970

def exceedsDouble (digits : List Char) (scale : Int) : Bool :=
  let significant := digits.dropWhile (· = '0')
  let magnitude : Int := significant.length + scale
  if significant.isEmpty || magnitude < 300 then false
  else if 320 < magnitude then true
  else if 0 ≤ scale then doubleLimit ≤ numeral 10 significant * Nat.pow 10 scale.toNat
  else doubleLimit * Nat.pow 10 (-scale).toNat ≤ numeral 10 significant

def exponent? (cs : List Char) : Option (Int × List Char) :=
  match cs with
  | e :: rest =>
    if e = 'e' || e = 'E' then
      match rest with
      | '-' :: rest => (digits? Char.isDigit rest).map fun (ds, r) => (-(numeral 10 ds : Int), r)
      | '+' :: rest => (digits? Char.isDigit rest).map fun (ds, r) => ((numeral 10 ds : Int), r)
      | rest => (digits? Char.isDigit rest).map fun (ds, r) => ((numeral 10 ds : Int), r)
    else some (0, cs)
  | [] => some (0, [])

def float (negative : Bool) (whole : List Char) (cs : List Char) :
    Except Fault (Value × List Char) :=
  let fraction? := match cs with
    | '.' :: rest => digits? Char.isDigit rest
    | _ => some ([], cs)
  match fraction? with
  | none => refuse .badNumber cs
  | some (fraction, rest) =>
    match exponent? rest with
    | none => refuse .badNumber rest
    | some (exponent, rest) =>
      if !negative && exceedsDouble (whole ++ fraction) (exponent - fraction.length) then
        refuse .numberRange rest
      else .ok (.float, rest)

def decimal (negative : Bool) (cs : List Char) : Except Fault (Value × List Char) :=
  match cs with
  | 'i' :: 'n' :: 'f' :: rest => .ok (.float, rest)
  | 'n' :: 'a' :: 'n' :: rest => .ok (.float, rest)
  | cs =>
    match whole? cs with
    | none => refuse .badNumber cs
    | some (whole, rest) =>
      match rest with
      | '.' :: _ | 'e' :: _ | 'E' :: _ => float negative whole rest
      | _ => integer 10 negative whole rest

def number : List Char → Except Fault (Value × List Char)
  | '+' :: rest => decimal false rest
  | '-' :: rest => decimal true rest
  | '0' :: 'x' :: rest => radix 16 isHexDigit rest
  | '0' :: 'o' :: rest => radix 8 isOctalDigit rest
  | '0' :: 'b' :: rest => radix 2 isBinaryDigit rest
  | cs => decimal false cs

def fixed? (width : Nat) (cs : List Char) : Option (Nat × List Char) :=
  let digits := cs.take width
  if digits.length = width && digits.all Char.isDigit then some (numeral 10 digits, cs.drop width)
  else none

def daysOfMonth (year month : Nat) : Nat :=
  if month = 2 then
    if year % 4 = 0 && (year % 100 ≠ 0 || year % 400 = 0) then 29 else 28
  else if month = 4 || month = 6 || month = 9 || month = 11 then 30
  else 31

def date? (cs : List Char) : Option (List Char) :=
  match fixed? 4 cs with
  | some (year, '-' :: rest) =>
    match fixed? 2 rest with
    | some (month, '-' :: rest) =>
      match fixed? 2 rest with
      | some (day, rest) =>
        if 1 ≤ month && month ≤ 12 && 1 ≤ day && day ≤ daysOfMonth year month then some rest
        else none
      | none => none
    | _ => none
  | _ => none

def minute? (cs : List Char) : Option (List Char) :=
  match fixed? 2 cs with
  | some (hour, ':' :: rest) =>
    match fixed? 2 rest with
    | some (minute, rest) => if hour ≤ 23 && minute ≤ 59 then some rest else none
    | none => none
  | _ => none

def clock? (cs : List Char) : Option (List Char) :=
  match minute? cs with
  | some (':' :: rest) =>
    match fixed? 2 rest with
    | some (second, rest) =>
      if 60 < second then none
      else
        match rest with
        | '.' :: d :: after =>
          if d.isDigit then some (after.dropWhile Char.isDigit) else some rest
        | rest => some rest
    | none => none
  | _ => none

def skipZone (cs : List Char) : List Char :=
  match cs with
  | c :: rest =>
    if c = 'Z' || c = 'z' then rest
    else if c = '+' || c = '-' then (minute? rest).getD cs
    else cs
  | [] => []

def time? (cs : List Char) : Option (List Char) :=
  match date? cs with
  | none => clock? cs
  | some [] => some []
  | some (c :: rest) =>
    if c = 'T' || c = 't' || c = ' ' then
      match clock? rest with
      | some after => some (skipZone after)
      | none => some (c :: rest)
    else some (c :: rest)

end ScopeFrames.Toml
