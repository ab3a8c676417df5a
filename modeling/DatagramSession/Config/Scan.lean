/-!
# Scanning settings text

Settings are written as JSON.  The text is read from left to right and reading stops at the first
fault, so which of several faults is reported depends on where they are.  A scanner takes the
characters that are left and gives back what it found with the characters after it.
-/
namespace DatagramSession.Config

/-- Why a text is no settings. -/
inductive Fault where
  /-- The text is not well-formed. -/
  | malformed
  /-- The text ends too early. -/
  | truncated
  /-- A value, or its absence, does not fit the settings. -/
  | unfit
  deriving DecidableEq, Repr

/-- The blanks of JSON. -/
def isBlank (c : Char) : Bool :=
  c = ' ' || c = '\n' || c = '\t' || c = '\r'

def skipBlanks (cs : List Char) : List Char :=
  cs.dropWhile isBlank

/-- The rest of a word whose first letter has been seen. -/
def scanWord : List Char → List Char → Except Fault (List Char)
  | [], cs => .ok cs
  | _ :: _, [] => .error .truncated
  | w :: word, c :: cs => if c = w then scanWord word cs else .error .malformed

/-! ## Texts -/

def hexValue? (c : Char) : Option Nat :=
  if c.isDigit then some (c.toNat - '0'.toNat)
  else if 'a' ≤ c && c ≤ 'f' then some (c.toNat - 'a'.toNat + 10)
  else if 'A' ≤ c && c ≤ 'F' then some (c.toNat - 'A'.toNat + 10)
  else none

/-- Four hexadecimal digits.  The text is truncated only if fewer than four bytes are left. -/
def scanHex (cs : List Char) : Except Fault (Nat × List Char) :=
  if (cs.take 4).foldl (fun size c => size + c.utf8Size) 0 < 4 then .error .truncated
  else
    match (cs.take 4).mapM hexValue? with
    | some [a, b, c, d] => .ok (((a * 16 + b) * 16 + c) * 16 + d, cs.drop 4)
    | _ => .error .malformed

/-- The character that a backslash and a letter stand for. -/
def simpleEscape? : Char → Option Char
  | '"' => some '"'
  | '\\' => some '\\'
  | '/' => some '/'
  | 'b' => some '\x08'
  | 'f' => some '\x0c'
  | 'n' => some '\n'
  | 'r' => some '\r'
  | 't' => some '\t'
  | _ => none

/-- The second half of a surrogate pair, after the first. -/
def scanLowSurrogate (high : Nat) : List Char → Except Fault (Char × List Char)
  | [] => .error .truncated
  | '\\' :: [] => .error .truncated
  | '\\' :: 'u' :: cs => do
    let (low, cs) ← scanHex cs
    if 0xDC00 ≤ low && low ≤ 0xDFFF then
      .ok (Char.ofNat ((high - 0xD800) * 1024 + (low - 0xDC00) + 0x10000), cs)
    else .error .malformed
  | _ => .error .malformed

/-- A numbered escape; surrogates must come in pairs. -/
def scanUnicodeEscape (cs : List Char) : Except Fault (Char × List Char) := do
  let (n, cs) ← scanHex cs
  if 0xDC00 ≤ n && n ≤ 0xDFFF then .error .malformed
  else if 0xD800 ≤ n && n ≤ 0xDBFF then scanLowSurrogate n cs
  else .ok (Char.ofNat n, cs)

/-- What stands after a backslash. -/
def scanEscape : List Char → Except Fault (Char × List Char)
  | [] => .error .truncated
  | 'u' :: cs => scanUnicodeEscape cs
  | c :: cs =>
    match simpleEscape? c with
    | some e => .ok (e, cs)
    | none => .error .malformed

/-- A text after its opening quote; the fuel bounds the number of its characters. -/
def scanTextWith : Nat → List Char → List Char → Except Fault (String × List Char)
  | 0, _, _ => .error .truncated
  | _ + 1, _, [] => .error .truncated
  | fuel + 1, found, c :: cs =>
    if c = '"' then .ok (String.ofList found.reverse, cs)
    else if c = '\\' then do
      let (e, cs) ← scanEscape cs
      scanTextWith fuel (e :: found) cs
    else if c.toNat < 32 then .error .malformed
    else scanTextWith fuel (c :: found) cs

/-- A text after its opening quote. -/
def scanText (cs : List Char) : Except Fault (String × List Char) :=
  scanTextWith (cs.length + 1) [] cs

/-! ## Numbers -/

/-- A number as it is written: whole, below zero, or with a point or an exponent. -/
inductive Number where
  | whole (n : UInt64)
  | negative (n : Int64)
  | real (x : Float)

def digitValue (c : Char) : Nat :=
  c.toNat - '0'.toNat

/-- Takes digits into a number as long as it stays below 2^64; gives the number, how many digits it
took, and what is left. -/
def gatherDigits (n : Nat) : List Char → Nat × Nat × List Char
  | [] => (n, 0, [])
  | c :: cs =>
    if c.isDigit && n * 10 + digitValue c < UInt64.size then
      let (m, count, rest) := gatherDigits (n * 10 + digitValue c) cs
      (m, count + 1, rest)
    else (n, 0, c :: cs)

def skipDigits (cs : List Char) : List Char :=
  cs.dropWhile Char.isDigit

def startsWithDigit : List Char → Bool
  | c :: _ => c.isDigit
  | [] => false

/-- The double nearest to a power of ten. -/
def tenTo (n : Nat) : Float :=
  Float.ofScientific 1 false n

/-- Divides by a power of ten, in steps that a double can hold. -/
def scaleDown (x : Float) (n : Nat) : Float :=
  if n ≤ 308 then x / tenTo n
  else if x == 0 then x
  else scaleDown (x / tenTo 308) (n - 308)
termination_by n

/-- The double of a significand times a power of ten; a number that is too large is malformed. -/
def scale (significand : Nat) (exponent : Int) : Except Fault Float :=
  let x := (UInt64.ofNat significand).toFloat
  if exponent < 0 then .ok (scaleDown x exponent.natAbs)
  else if exponent ≤ 308 then
    let y := x * tenTo exponent.toNat
    if y.isInf then .error .malformed else .ok y
  else if x == 0 then .ok x
  else .error .malformed

/-- A real number with its sign. -/
def signed (negative : Bool) (x : Float) : Number :=
  .real (if negative then -x else x)

/-- The real number with this sign, significand and power of ten, in front of the rest of the
text. -/
def scaled (negative : Bool) (significand : Nat) (exponent : Int) (cs : List Char) :
    Except Fault (Number × List Char) := do
  let x ← scale significand exponent
  .ok (signed negative x, cs)

/-- The digits of an exponent and its sign. -/
def scanExponentDigits (negative : Bool) (significand : Nat) (exponent : Int) (down : Bool)
    (cs : List Char) :
    Except Fault (Number × List Char) :=
  match cs with
  | [] => .error .truncated
  | c :: _ =>
    if c.isDigit then
      let n := (cs.takeWhile Char.isDigit).foldl (fun n c => n * 10 + digitValue c) 0
      if n < UInt32.size / 2 then
        scaled negative significand (if down then exponent - n else exponent + n) (skipDigits cs)
      else if significand ≠ 0 && !down then .error .malformed
      else .ok (signed negative 0, skipDigits cs)
    else .error .malformed

/-- An exponent after its letter. -/
def scanExponent (negative : Bool) (significand : Nat) (exponent : Int) :
    List Char → Except Fault (Number × List Char)
  | '+' :: cs => scanExponentDigits negative significand exponent false cs
  | '-' :: cs => scanExponentDigits negative significand exponent true cs
  | cs => scanExponentDigits negative significand exponent false cs

def isExponentLetter (c : Char) : Bool :=
  c = 'e' || c = 'E'

/-- What may follow the digits of a real number: an exponent or nothing. -/
def scanRealEnd (negative : Bool) (significand : Nat) (exponent : Int) :
    List Char → Except Fault (Number × List Char)
  | [] => scaled negative significand exponent []
  | c :: cs =>
    if isExponentLetter c then scanExponent negative significand exponent cs
    else scaled negative significand exponent (c :: cs)

/-- The digits after a point, at least one; those that no longer fit do not count. -/
def scanFraction (negative : Bool) (significand : Nat) (exponent : Int) (cs : List Char) :
    Except Fault (Number × List Char) :=
  let (n, count, rest) := gatherDigits significand cs
  if count = 0 && !startsWithDigit rest then
    .error (if rest.isEmpty then .truncated else .malformed)
  else scanRealEnd negative n (exponent - count) (skipDigits rest)

/-- A whole number with its sign.  Zero below zero and numbers below the least 64-bit integer are
real. -/
def wholeNumber (negative : Bool) (n : Nat) : Number :=
  if !negative then .whole (UInt64.ofNat n)
  else if n = 0 || UInt64.size / 2 < n then .real (-(UInt64.ofNat n).toFloat)
  else .negative (Int64.ofInt (-n))

/-- What may follow the leading digits of a number: more digits than fit, a point, an exponent or
nothing. -/
def scanNumberEnd (negative : Bool) (n : Nat) (cs : List Char) :
    Except Fault (Number × List Char) :=
  if startsWithDigit cs then
    let extra := (cs.takeWhile Char.isDigit).length
    match skipDigits cs with
    | '.' :: rest => scanFraction negative n extra rest
    | rest => scanRealEnd negative n extra rest
  else
    match cs with
    | [] => .ok (wholeNumber negative n, [])
    | c :: rest =>
      if c = '.' then scanFraction negative n 0 rest
      else if isExponentLetter c then scanExponent negative n 0 rest
      else .ok (wholeNumber negative n, c :: rest)

/-- A number after its sign.  A leading zero stands alone. -/
def scanUnsigned (negative : Bool) : List Char → Except Fault (Number × List Char)
  | [] => .error .truncated
  | '0' :: cs => if startsWithDigit cs then .error .malformed else scanNumberEnd negative 0 cs
  | c :: cs =>
    if c.isDigit then
      let (n, _, rest) := gatherDigits (digitValue c) cs
      scanNumberEnd negative n rest
    else .error .malformed

/-- A number, if one begins here. -/
def scanNumber? : List Char → Option (Except Fault (Number × List Char))
  | '-' :: cs => some (scanUnsigned true cs)
  | c :: cs => if c.isDigit then some (scanUnsigned false (c :: cs)) else none
  | [] => none

/-! ## Values that are not asked for -/

/-- The fault of a value of the wrong kind, which is found only after a scalar has been read to its
end. -/
def misfit {α : Type} (cs : List Char) : Except Fault α :=
  let unfitAfter {β : Type} : Except Fault β → Except Fault α
    | .ok _ => .error .unfit
    | .error e => .error e
  match cs with
  | [] => .error .malformed
  | 'n' :: rest => unfitAfter (scanWord "ull".toList rest)
  | 't' :: rest => unfitAfter (scanWord "rue".toList rest)
  | 'f' :: rest => unfitAfter (scanWord "alse".toList rest)
  | '"' :: rest => unfitAfter (scanText rest)
  | '[' :: _ => .error .unfit
  | '{' :: _ => .error .unfit
  | cs =>
    match scanNumber? cs with
    | some scanned => unfitAfter scanned
    | none => .error .malformed

/-- Skips a text after its opening quote.  Of a numbered escape only the digits matter. -/
def skipTextWith : Nat → List Char → Except Fault (List Char)
  | 0, _ => .error .truncated
  | _ + 1, [] => .error .truncated
  | fuel + 1, c :: cs =>
    if c = '"' then .ok cs
    else if c = '\\' then
      match cs with
      | [] => .error .truncated
      | 'u' :: cs => do
        let (_, cs) ← scanHex cs
        skipTextWith fuel cs
      | e :: cs => if (simpleEscape? e).isSome then skipTextWith fuel cs else .error .malformed
    else if c.toNat < 32 then .error .malformed
    else skipTextWith fuel cs

def skipText (cs : List Char) : Except Fault (List Char) :=
  skipTextWith (cs.length + 1) cs

/-- Skips at least one digit. -/
def skipSomeDigits (cs : List Char) : Except Fault (List Char) :=
  if startsWithDigit cs then .ok (skipDigits cs) else .error .malformed

def skipExponent : List Char → Except Fault (List Char)
  | '+' :: cs => skipSomeDigits cs
  | '-' :: cs => skipSomeDigits cs
  | cs => skipSomeDigits cs

/-- Skips a fraction and an exponent, if there are any. -/
def skipNumberEnd : List Char → Except Fault (List Char)
  | '.' :: cs => do
    match ← skipSomeDigits cs with
    | c :: rest => if isExponentLetter c then skipExponent rest else .ok (c :: rest)
    | [] => .ok []
  | c :: cs => if isExponentLetter c then skipExponent cs else .ok (c :: cs)
  | [] => .ok []

/-- Skips a number after its sign, however large it is. -/
def skipNumber : List Char → Except Fault (List Char)
  | '0' :: cs => if startsWithDigit cs then .error .malformed else skipNumberEnd cs
  | cs => if startsWithDigit cs then skipNumberEnd (skipDigits cs) else .error .malformed

/-- A list or an object that is being skipped. -/
inductive Frame where
  | list
  | object
  deriving DecidableEq, Repr

def Frame.closer : Frame → Char
  | list => ']'
  | object => '}'

/-- Skips a key and the colon after it. -/
def skipKey (cs : List Char) : Except Fault (List Char) :=
  match skipBlanks cs with
  | [] => .error .truncated
  | '"' :: cs => do
    match skipBlanks (← skipText cs) with
    | ':' :: cs => .ok cs
    | [] => .error .truncated
    | _ => .error .malformed
  | _ => .error .malformed

/-- What the skipper expects next. -/
inductive Expected where
  /-- A value. -/
  | value
  /-- The first element or key of the innermost frame, or its end. -/
  | opened
  /-- A comma or the end of the innermost frame. -/
  | more

/-- Skips the rest of a value inside the given frames, innermost first. -/
def skipInside : Nat → Expected → List Frame → List Char → Except Fault (List Char)
  | 0, _, _, _ => .error .truncated
  | fuel + 1, .value, frames, cs => do
    match skipBlanks cs with
    | [] => .error .truncated
    | 'n' :: cs => skipInside fuel .more frames (← scanWord "ull".toList cs)
    | 't' :: cs => skipInside fuel .more frames (← scanWord "rue".toList cs)
    | 'f' :: cs => skipInside fuel .more frames (← scanWord "alse".toList cs)
    | '"' :: cs => skipInside fuel .more frames (← skipText cs)
    | '-' :: cs => skipInside fuel .more frames (← skipNumber cs)
    | '[' :: cs => skipInside fuel .opened (.list :: frames) cs
    | '{' :: cs => skipInside fuel .opened (.object :: frames) cs
    | c :: cs =>
      if c.isDigit then skipInside fuel .more frames (← skipNumber (c :: cs)) else .error .malformed
  | _ + 1, _, [], cs => .ok cs
  | fuel + 1, .opened, frame :: frames, cs => do
    match skipBlanks cs with
    | [] => .error .truncated
    | c :: rest =>
      if c = frame.closer then skipInside fuel .more frames rest
      else if frame = .object then skipInside fuel .value (frame :: frames) (← skipKey (c :: rest))
      else skipInside fuel .value (frame :: frames) (c :: rest)
  | fuel + 1, .more, frame :: frames, cs => do
    match skipBlanks cs with
    | [] => .error .truncated
    | c :: rest =>
      if c = ',' then
        if frame = .object then skipInside fuel .value (frame :: frames) (← skipKey rest)
        else skipInside fuel .value (frame :: frames) rest
      else if c = frame.closer then skipInside fuel .more frames rest
      else .error .malformed

/-- Skips one value. -/
def skipValue (cs : List Char) : Except Fault (List Char) :=
  skipInside (2 * cs.length + 2) .value [] cs

end DatagramSession.Config
