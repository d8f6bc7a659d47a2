import Storyboard.Color.Basic
import Storyboard.Color.Names
import Storyboard.Text.Blank

/-!
# Reading colors

The grammar of color text: hexadecimal digits after a hash sign, color names, and the color
functions. `Color.read` gives the color or the reason why the text is none. Components are
computed in the wider scalar `T` and rounded to `G` at the end.
-/

namespace Storyboard

open Number Text

/-- Why a text is not a color. -/
inductive ColorFault where
  | hexDigitCount
  | trailingText
  | unknownSyntax
  | unknownIdentifier
  | missingArguments
  | unknownComponent
  | unknownAngleUnit
  | unknownAngle
  | missingComma
  | missingParenthesis
  | unknownSpace
  | missingSpace
  deriving DecidableEq, Repr

def ColorFault.message : ColorFault → String
  | hexDigitCount => "wrong number of hex digits"
  | trailingText => "expected end of string"
  | unknownSyntax => "unknown color syntax"
  | unknownIdentifier => "unknown color identifier"
  | missingArguments => "expected arguments"
  | unknownComponent => "unknown color component"
  | unknownAngleUnit => "unknown angle dimension"
  | unknownAngle => "unknown angle"
  | missingComma => "expected comma"
  | missingParenthesis => "expected closing parenthesis"
  | unknownSpace => "unknown color space"
  | missingSpace => "expected color space identifier"

/-- A text that is not a color, and why. -/
structure ColorError where
  text : String
  fault : ColorFault
  deriving DecidableEq, Repr

def ColorError.message (e : ColorError) : String :=
  "invalid color `" ++ e.text ++ "`: " ++ e.fault.message

namespace Color

/-- A reader of the front of a text. -/
abbrev Reader (α : Type) := StateT (List Char) (Except ColorFault) α

/-! ### Tokens -/

/-- Longer words are left in the case they are written in. -/
def foldedWordLength : Nat := 32

def foldCase (word : List Char) : String :=
  String.ofList (if word.length ≤ foldedWordLength then word.map Char.toLower else word)

/-- The text after a closed comment at the front, if there is one. -/
def comment? (cs : List Char) : Option (List Char) := do
  let rest ← dropLeading? ['/', '*'] cs
  let (_, after) ← splitAtMark? ['*', '/'] rest
  return after

def isGap (c : Char) : Bool :=
  c = ' ' || c = '\t' || c = '\r' || c = '\n'

/-- Drops white space and comments; each round but the last drops a character. -/
def skipGaps : Nat → List Char → List Char
  | 0, cs => cs
  | fuel + 1, cs =>
    match comment? cs with
    | some rest => skipGaps fuel rest
    | none =>
      match cs with
      | c :: rest => if isGap c then skipGaps fuel rest else cs
      | [] => []

def gaps : Reader Unit :=
  modify fun cs => skipGaps (cs.length + 1) cs

/-- Takes the character if it comes next, at once. -/
def takeHere (c : Char) : Reader Bool := fun cs =>
  match cs with
  | d :: rest => if d = c then .ok (true, rest) else .ok (false, cs)
  | [] => .ok (false, cs)

/-- Drops closed comments; each round but the last drops a character. -/
def skipComments : Nat → List Char → List Char
  | 0, cs => cs
  | fuel + 1, cs =>
    match comment? cs with
    | some rest => skipComments fuel rest
    | none => cs

/-- Takes the character if it comes next, after comments. What opens a comment that is never
closed stands for no character. -/
def takeAfterComments (c : Char) : Reader Bool := do
  modify fun cs => skipComments (cs.length + 1) cs
  if (dropLeading? ['/', '*'] (← get)).isSome then return false
  takeHere c

/-- Takes the character if it comes next, after white space and comments. -/
def takeNext (c : Char) : Reader Bool := do
  gaps
  takeAfterComments c

def isWordChar (c : Char) : Bool :=
  c.isAlphanum || c = '_' || c = '-'

/-- An identifier: a digit may not come first, nor second after a hyphen, and it may not be
empty, a lone hyphen, or begin with two hyphens. -/
def takeWord : Reader (Option (List Char)) := fun cs =>
  let body (cs : List Char) := (cs.takeWhile isWordChar, cs.dropWhile isWordChar)
  let found (word rest : List Char) :=
    if word.isEmpty || word = ['-'] || (dropLeading? ['-', '-'] word).isSome then
      .ok (none, cs)
    else .ok (some word, rest)
  match cs with
  | '-' :: c :: rest =>
    if c.isDigit || !isWordChar c then .ok (none, cs)
    else
      let (word, after) := body rest
      found ('-' :: c :: word) after
  | c :: rest =>
    if c.isDigit || !isWordChar c then .ok (none, cs)
    else
      let (word, after) := body rest
      found (c :: word) after
  | [] => .ok (none, cs)

/-- The digits after a point that has some; otherwise the point stays. -/
def splitDecimals (cs : List Char) : List Char × List Char :=
  match cs with
  | '.' :: rest =>
    let (digits, after) := Literal.splitDigits rest
    if digits.isEmpty then ([], cs) else (digits, after)
  | _ => ([], cs)

/-- An exponent that has digits; otherwise its mark stays. -/
def splitExponent (cs : List Char) : Int × List Char :=
  match cs with
  | c :: rest =>
    if c = 'e' ∨ c = 'E' then
      let (negative, rest) := Literal.splitSign rest
      let (digits, after) := Literal.splitDigits rest
      if digits.isEmpty then (0, cs)
      else
        let e : Int := Literal.digitsValue digits
        (if negative then -e else e, after)
    else (0, cs)
  | [] => (0, [])

def takeNumber : Reader (Option Literal) := fun cs =>
  let (negative, rest) := Literal.splitSign cs
  let (whole, rest) := Literal.splitDigits rest
  let (decimals, rest) := splitDecimals rest
  if whole.isEmpty ∧ decimals.isEmpty then .ok (none, cs)
  else
    let (e, rest) := splitExponent rest
    let literal :=
      .finite negative (Literal.digitsValue (whole ++ decimals)) (e - decimals.length)
    .ok (some literal, rest)

variable {T : Type} [Scalar T]

/-- A number with what follows it at once, or a word. -/
inductive Value (T : Type) where
  | number (n : T)
  | percent (n : T)
  | dimension (n : T) (unit : String)
  | word (w : String)
  | nothing

def takeValue : Reader (Value T) := do
  match ← takeNumber with
  | some literal =>
    let n := Scalar.ofLiteral literal
    if ← takeHere '%' then return .percent n
    match ← takeWord with
    | some unit => return .dimension n (foldCase unit)
    | none => return .number n
  | none =>
    match ← takeWord with
    | some w => return .word (foldCase w)
    | none => return .nothing

/-! ### Components -/

/-- A component: a number or a percentage, each with its own scale, or `none`. -/
def takeComponent (scale percentScale : T) : Reader (Option T) := do
  gaps
  match ← takeValue with
  | .number n => return some (n * scale)
  | .percent n => return some (n * percentScale)
  | .word "none" => return none
  | _ => throw .unknownComponent

def takeAngle : Reader (Option T) := do
  gaps
  match ← takeValue with
  | .number n => return some n
  | .word "none" => return none
  | .dimension n unit =>
    match unit with
    | "deg" => return some (n * 1)
    | "rad" => return some (n * 57.29577951308232)
    | "grad" => return some (n * 0.9)
    | "turn" => return some (n * 360)
    | _ => throw .unknownAngleUnit
  | _ => throw .unknownAngle

/-- Commas between the components, or blanks with a slash before the alpha. -/
inductive Separators where
  | commas
  | blanks

def Separators.beforeAlpha : Separators → Char
  | commas => ','
  | blanks => '/'

/-- The way of separating that the comma after the first argument decides. -/
def Separators.ofComma (found : Bool) : Separators :=
  if found then .commas else .blanks

def takeSeparator : Separators → Reader Unit
  | .commas => do unless ← takeNext ',' do throw .missingComma
  | .blanks => gaps

def takeOpening : Reader Unit := do
  unless ← takeHere '(' do throw .missingArguments

/-- The alpha, if there is one, and the closing parenthesis. -/
def takeAlpha (separators : Separators) : Reader (Option T) := do
  let alpha ←
    if ← takeNext separators.beforeAlpha then
      pure ((← takeComponent 1 0.01).map (Scalar.clamp 0 1))
    else pure (some 1)
  unless ← takeNext ')' do throw .missingParenthesis
  return alpha

/-! ### Functions -/

/-- The components of a function's arguments, before rounding. -/
abbrev Arguments (T : Type) := Components (Option T)

def takeRgb : Reader (Arguments T) := do
  takeOpening
  let channel : Reader (Option T) :=
    return (← takeComponent (1 / 255) 0.01).map (Scalar.clamp 0 1)
  let r ← channel
  let separators := Separators.ofComma (← takeNext ',')
  let g ← channel
  takeSeparator separators
  let b ← channel
  return ⟨r, g, b, ← takeAlpha separators⟩

/-- The comma that decides comes at once after the hue: white space there makes it none. -/
def takeHsl : Reader (Arguments T) := do
  takeOpening
  let h ← takeAngle
  let separators := Separators.ofComma (← takeAfterComments ',')
  let s ← takeComponent 1 1
  takeSeparator separators
  let l ← takeComponent 1 1
  return ⟨h, s.map (Scalar.greatest · 0), l, ← takeAlpha separators⟩

def takeHwb : Reader (Arguments T) := do
  takeOpening
  let h ← takeAngle
  let w ← takeComponent 1 1
  let b ← takeComponent 1 1
  return ⟨h, w, b, ← takeAlpha .blanks⟩

/-- A lightness, cut to its range, where percentages run up to `most`. -/
def takeLightness (most : T) : Reader (Option T) :=
  return (← takeComponent 1 (0.01 * most)).map (Scalar.clamp 0 most)

/-- Lightness and two opponent axes. -/
def takeOpponent (most percentScale : T) : Reader (Arguments T) := do
  takeOpening
  let l ← takeLightness most
  let a ← takeComponent 1 percentScale
  let b ← takeComponent 1 percentScale
  return ⟨l, a, b, ← takeAlpha .blanks⟩

/-- Lightness, chroma and hue. -/
def takePolar (most percentScale : T) : Reader (Arguments T) := do
  takeOpening
  let l ← takeLightness most
  let c ← takeComponent 1 percentScale
  let h ← takeAngle
  return ⟨l, c.map (Scalar.greatest · 0), h, ← takeAlpha .blanks⟩

/-- The space and components of `color()`. -/
def takeInSpace : Reader (ColorSpace × Arguments T) := do
  takeOpening
  gaps
  match ← takeWord with
  | none => throw .missingSpace
  | some word =>
    match ColorSpace.ofName? (foldCase word) with
    | none => throw .unknownSpace
    | some space =>
      let a ← takeComponent 1 0.01
      let b ← takeComponent 1 0.01
      let c ← takeComponent 1 0.01
      return (space, ⟨a, b, c, ← takeAlpha .blanks⟩)

variable {G : Type} [Scalar G] [Narrow T G]

/-- The color of a function's arguments. -/
def ofArguments (space : ColorSpace) (form : ColorForm) (arguments : Arguments T) : Color G :=
  { space, form
    values := arguments.map fun
      | some n => narrow n
      | none => 0
    missing := arguments.map Option.isNone }

/-! ### Whole colors -/

def hexValue? (c : Char) : Option Nat :=
  if c.isDigit then some (c.toNat - 48)
  else if 'a' ≤ c ∧ c ≤ 'f' then some (c.toNat - 87)
  else if 'A' ≤ c ∧ c ≤ 'F' then some (c.toNat - 55)
  else none

/-- At most eight leading hexadecimal digits, and the rest. -/
def splitHex : Nat → List Char → List Nat × List Char
  | 0, cs => ([], cs)
  | _, [] => ([], [])
  | n + 1, c :: rest =>
    match hexValue? c with
    | some d =>
      let (digits, after) := splitHex n rest
      (d :: digits, after)
    | none => ([], c :: rest)

/-- The bytes of three or four single digits, or of three or four pairs. -/
def hexBytes? : List Nat → Option (Components Nat)
  | [r, g, b] => some ⟨17 * r, 17 * g, 17 * b, 255⟩
  | [r, g, b, a] => some ⟨17 * r, 17 * g, 17 * b, 17 * a⟩
  | [r, r', g, g', b, b'] => some ⟨16 * r + r', 16 * g + g', 16 * b + b', 255⟩
  | [r, r', g, g', b, b', a, a'] => some ⟨16 * r + r', 16 * g + g', 16 * b + b', 16 * a + a'⟩
  | _ => none

def takeHex : Reader (Color G) := fun cs =>
  let (digits, rest) := splitHex 8 cs
  match hexBytes? digits with
  | some bytes => .ok (ofBytes bytes .function, rest)
  | none => .error .hexDigitCount

/-- The color of a name. -/
def ofName? (name : String) : Option (Color G) :=
  (names.lookup name).map fun n =>
    ofBytes ⟨n / 0x1000000, n / 0x10000 % 256, n / 0x100 % 256, n % 256⟩ (.named name)

variable (T) in
/-- A name, or a function after its name. -/
def takeNamed : Reader (Color G) := do
  match ← takeWord with
  | none => throw .unknownSyntax
  | some word =>
    match foldCase word with
    | "rgb" | "rgba" => return ofArguments .srgb .function (← takeRgb (T := T))
    | "hsl" | "hsla" => return ofArguments .hsl .function (← takeHsl (T := T))
    | "hwb" => return ofArguments .hwb .function (← takeHwb (T := T))
    | "lab" => return ofArguments .lab .function (← takeOpponent (100 : T) 1.25)
    | "lch" => return ofArguments .lch .function (← takePolar (100 : T) 1.25)
    | "oklab" => return ofArguments .oklab .function (← takeOpponent (1 : T) 0.004)
    | "oklch" => return ofArguments .oklch .function (← takePolar (1 : T) 0.004)
    | "color" =>
      let (space, arguments) ← takeInSpace (T := T)
      return ofArguments space .plain arguments
    | name =>
      match ofName? name with
      | some color => return color
      | none => throw .unknownIdentifier

variable (T) in
/-- Reads a color, with white space around it allowed. -/
def read (text : String) : Except ColorError (Color G) :=
  let take : Reader (Color G) := fun cs =>
    match cs with
    | '#' :: digits => takeHex digits
    | cs => takeNamed T cs
  match take.run (trim text.toList) with
  | .ok (color, []) => .ok color
  | .ok (_, _ :: _) => .error ⟨text, .trailingText⟩
  | .error fault => .error ⟨text, fault⟩

variable (T) in
def read? (text : String) : Option (Color G) :=
  (read T text).toOption

end Color

end Storyboard
