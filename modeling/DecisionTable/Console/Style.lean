import DecisionTable.Settings.Environment
import DecisionTable.Sheet.Error

/-! # Coloured text

The colours of the output on a terminal, and when they are used. Output that is not for a
terminal has none unless the environment asks for them.
-/

namespace DecisionTable

/-- A colour by its parts. -/
structure Colour where
  red : UInt8
  green : UInt8
  blue : UInt8
  deriving DecidableEq, Repr

/-- How a text looks. -/
structure Look where
  colour : Option Colour
  bold : Bool
  deriving DecidableEq, Repr

namespace Look

/-- A colour without more. -/
def ofColour (red green blue : UInt8) : Look := ⟨some ⟨red, green, blue⟩, false⟩

/-- What went well. -/
def pass : Look := ofColour 0xC2 0xD9 0x4C

/-- A warning. -/
def warn : Look := ofColour 0xFF 0xB4 0x54

/-- What failed. -/
def fail : Look := ofColour 0xF0 0x71 0x78

/-- What matters less. -/
def muted : Look := ofColour 0x6C 0x76 0x80

/-- A formula. -/
def expression : Look := ofColour 0xD2 0xA6 0xFF

/-- A heading. -/
def heading : Look := ⟨none, true⟩

/-- The name of a rule. -/
def ruleName : Look := { ofColour 0x59 0xC2 0xFF with bold := true }

/-- The name of a kind of error. Errors of the layout and the templates stand out. -/
def ofKind : TableErrorKind → Look
  | .layout | .binding => { fail with bold := true }
  | .expression => warn
  | .sheet => muted

end Look

/-- Whether text is coloured. -/
structure Palette where
  coloured : Bool
  deriving DecidableEq, Repr

namespace Palette

/-- The palette for output that does not go to a terminal: some variables forbid colours, and only
    then another one asks for them. -/
def ofEnvironment (environment : Environment) : Palette :=
  let forbidden := (environment.get? "NO_COLOR").isSome ||
    environment.get? "CLICOLOR" == some "0" || environment.get? "TERM" == some "dumb"
  ⟨!forbidden && (environment.get? "CLICOLOR_FORCE").isSome⟩

/-- A control sequence of the terminal. -/
def control (parameters : String) : String := s!"\x1b[{parameters}m"

/-- A text in a look. Without colours it stays as it is. -/
def paint (palette : Palette) (look : Look) (text : String) : String :=
  if palette.coloured then
    let inner := match look.colour with
      | some c => control s!"38;2;{c.red};{c.green};{c.blue}" ++ text ++ control "39"
      | none => text
    if look.bold then control "1" ++ inner ++ control "0" else inner
  else text

/-- The name of a kind of error. -/
def paintKind (palette : Palette) (kind : TableErrorKind) : String :=
  palette.paint (.ofKind kind) kind.name

/-- The line under a heading. -/
def separator (palette : Palette) : String := palette.paint .muted ("".pushn '─' 60)

end Palette

end DecisionTable
