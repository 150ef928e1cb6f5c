import BuildDiagnostics.Text.Utf8

/-!
# Text for terminals

Messages set parts of themselves off with escape sequences of terminals. Where there are no colors
to show, `plain` takes out all escape sequences and all control characters other than blanks, also
those that came into the message with a text from outside.

Sequences are followed byte by byte with the states of a terminal. A filter is either looking for
text, in which case bytes change its state, or it shows text, and then bytes are read as ordinary
text until one is none. A line feed inside a sequence is shown, and so is what comes after it.
-/

namespace BuildDiagnostics.Text.Terminal

/-- What a terminal is in the middle of. -/
inductive Place
  /-- Ordinary text. -/
  | text
  /-- A character in whose encoding so many bytes are still to come. -/
  | character (more : Nat)
  /-- A sequence, after the escape character. -/
  | escape
  /-- A sequence with an intermediate byte, which ends with one more byte. -/
  | shortSequence
  /-- A control sequence: parameters, then a final byte. -/
  | control
  /-- The head of a device control string. -/
  | deviceHead
  /-- Parameters in the head of a device control string. -/
  | deviceParameters
  /-- Intermediate bytes in the head of a device control string. -/
  | deviceIntermediates
  /-- The body of a device control string, or a string that has no meaning. -/
  | string
  /-- A command for the system around the terminal. -/
  | systemCommand
  deriving DecidableEq, Repr

/-- Whether a byte stands for a blank: of all control characters these alone are shown. -/
def isBlankByte (b : UInt8) : Bool :=
  b == 0x09 || b == 0x0A || b == 0x0C || b == 0x0D

/-- Whether a byte is a printable character of its own. -/
def isPrintableByte (b : UInt8) : Bool :=
  0x20 ≤ b && b < 0x7F

/-- How many bytes follow the first byte of a character of several bytes. -/
def following? (b : UInt8) : Option Nat :=
  if b < 0xC2 then none
  else if b < 0xE0 then some 1
  else if b < 0xF0 then some 2
  else if b < 0xF5 then some 3
  else none

/-- The place after a byte. Three bytes mean the same everywhere: one begins a sequence, and two end
whatever was begun. -/
def next (place : Place) (b : UInt8) : Place :=
  if b == 0x1B then .escape
  else if b == 0x18 || b == 0x1A then .text
  else
    let isIntermediate := 0x20 ≤ b && b ≤ 0x2F
    let isParameter := 0x30 ≤ b && b ≤ 0x3F
    let isFinal := 0x40 ≤ b && b ≤ 0x7E
    match place with
    | .text => (following? b).elim .text .character
    | .character 0 => .text
    | .character 1 => .text
    | .character (more + 2) => .character (more + 1)
    | .escape =>
      if isIntermediate then .shortSequence
      else if b == 0x5B then .control
      else if b == 0x5D then .systemCommand
      else if b == 0x50 then .deviceHead
      else if b == 0x58 || b == 0x5E || b == 0x5F then .string
      else if isParameter || isFinal then .text
      else .escape
    | .shortSequence => if isParameter || isFinal then .text else .shortSequence
    | .control => if isFinal then .text else .control
    | .deviceHead =>
      if isIntermediate then .deviceIntermediates
      else if isParameter then .deviceParameters
      else if isFinal then .string
      else .deviceHead
    | .deviceParameters =>
      if isIntermediate then .deviceIntermediates
      else if isFinal || 0x3C ≤ b && b ≤ 0x3F then .string
      else .deviceParameters
    | .deviceIntermediates =>
      if isParameter || isFinal then .string else .deviceIntermediates
    | .string => if b == 0x9C then .text else .string
    | .systemCommand => if b == 0x07 then .text else .systemCommand

/-- Whether a byte is shown where it stands. -/
def isShown (place : Place) (b : UInt8) : Bool :=
  match place with
  | .text => isPrintableByte b || isBlankByte b || (following? b).isSome
  | .character _ => true
  | .escape | .shortSequence | .control => isBlankByte b
  | _ => false

/-- A filter between two bytes. -/
structure Filter where
  place : Place := .text
  /-- Whether the last byte was shown. -/
  showing : Bool := false
  /-- The bytes that were shown, the last one first. -/
  shown : List UInt8 := []
  deriving DecidableEq, Repr

namespace Filter

/-- Shows a byte as text. Only the bytes of a longer character change the place. -/
def put (f : Filter) (b : UInt8) : Filter :=
  let place :=
    match f.place, following? b with
    | .character _, _ => next f.place b
    | _, some more => .character more
    | _, none => f.place
  { place, showing := true, shown := b :: f.shown }

/-- Takes a byte while looking for text. -/
def look (f : Filter) (b : UInt8) : Filter :=
  if isShown f.place b then f.put b
  else { f with place := next f.place b, showing := false }

/-- Takes the next byte. -/
def take (f : Filter) (b : UInt8) : Filter :=
  let asText : Place := match f.place with
    | .character more => .character more
    | _ => .text
  if f.showing && isShown asText b then f.put b else f.look b

end Filter

/-- The text without escape sequences and control characters. -/
def plain (text : String) : String :=
  Utf8.decode ((Utf8.encode text).foldl Filter.take {}).shown.reverse

/-- A part of a message that stands out. -/
def emphasized (text : String) : String :=
  "\x1b[1m" ++ text ++ "\x1b[0m"

end BuildDiagnostics.Text.Terminal
