namespace BatchPlan.Sql.Lexer

def escaped : Char → Char
  | '0' => Char.ofNat 0
  | 'a' => Char.ofNat 7
  | 'b' => Char.ofNat 8
  | 'f' => Char.ofNat 12
  | 'n' => '\n'
  | 'r' => '\r'
  | 't' => '\t'
  | 'Z' => Char.ofNat 26
  | c => c

/-- The text up to a closing quote and what follows it; a doubled quote stands for one, and a
backslash changes the character after it. -/
def quotedEscaping (close : Char) : List Char → Option (List Char × List Char)
  | [] => none
  | c :: rest =>
    if c = close then
      match rest with
      | d :: rest' =>
        if d = close then (quotedEscaping close rest').map fun (s, r) => (c :: s, r)
        else some ([], rest)
      | [] => some ([], [])
    else if c = '\\' then
      match rest with
      | d :: rest' => (quotedEscaping close rest').map fun (s, r) => (escaped d :: s, r)
      | [] => none
    else (quotedEscaping close rest).map fun (s, r) => (c :: s, r)

def isHexDigit (c : Char) : Bool :=
  c.isDigit || ('a' ≤ c && c ≤ 'f') || ('A' ≤ c && c ≤ 'F')

def isOctalDigit (c : Char) : Bool :=
  '0' ≤ c && c ≤ '7'

def digitValue (c : Char) : Nat :=
  if c.isDigit then c.toNat - '0'.toNat else c.toLower.toNat - 'a'.toNat + 10

/-- The number written by digits of a base, the most significant first. -/
def readDigits (base : Nat) (digits : List Char) : Nat :=
  digits.foldl (fun n c => n * base + digitValue c) 0

/-- The character of a byte, of which the low eight bits count. Only ASCII has one. -/
def byteChar? (n : Nat) : Option Char :=
  if n % 256 < 128 then some (Char.ofNat (n % 256)) else none

def codeChar? (cs : List Char) : Option Char :=
  let digits :=
    match cs with
    | '+' :: rest => rest
    | cs => cs
  let n := readDigits 16 digits
  if !digits.isEmpty && digits.all isHexDigit && n.isValidChar then some (Char.ofNat n) else none

/-- The number of characters that give a code point after the letter of an escape. -/
def codeWidth? (letter : Char) : Option Nat :=
  if letter = 'u' then some 4 else if letter = 'U' then some 8 else none

/-- The character that the letters of an escape string stand for where they are no codes. -/
def plainEscape : Char → Char
  | 'b' => Char.ofNat 8
  | 'f' => Char.ofNat 12
  | 'n' => '\n'
  | 'r' => '\r'
  | 't' => '\t'
  | c => c

/-- What an escape stands for, given the character after its backslash and the text after that, and
what follows it. An `x` without digits stands for itself. -/
def escapeSequence (c : Char) (rest : List Char) : Option (Char × List Char) :=
  match codeWidth? c with
  | some width =>
    if rest.length < width then none
    else (codeChar? (rest.take width)).map fun d => (d, rest.drop width)
  | none =>
    if c = 'x' then
      match (rest.take 2).takeWhile isHexDigit with
      | [] => some (c, rest)
      | digits => (byteChar? (readDigits 16 digits)).map fun d => (d, rest.drop digits.length)
    else if isOctalDigit c then
      let digits := (rest.take 2).takeWhile isOctalDigit
      (byteChar? (readDigits 8 (c :: digits))).map fun d => (d, rest.drop digits.length)
    else some (plainEscape c, rest)

/-- The body of an escape string up to its closing quote, and what follows that. An escape must not
stand for the character of code 0. Each step takes a character, so as much fuel as there are
characters is enough. -/
def escapeString : Nat → List Char → Option (List Char × List Char)
  | 0, _ => none
  | _ + 1, [] => none
  | fuel + 1, c :: rest =>
    if c = '\'' then
      match rest with
      | '\'' :: rest' => (escapeString fuel rest').map fun (s, r) => (c :: s, r)
      | rest => some ([], rest)
    else if c = '\\' then
      match rest with
      | [] => none
      | d :: rest' =>
        match escapeSequence d rest' with
        | none => none
        | some (e, r) =>
          if e.toNat = 0 then none else (escapeString fuel r).map fun (s, r) => (e :: s, r)
    else (escapeString fuel rest).map fun (s, r) => (c :: s, r)

end BatchPlan.Sql.Lexer
