/-! What a terminal shows of a text. Controls and the sequences that begin with an escape are meant
for the terminal itself and leave nothing behind, apart from tabs and line breaks. -/

namespace Synod.Text

/-- Where in a text a terminal is. -/
inductive Scan where
  | plain
  /-- Just after an escape. -/
  | escape
  /-- In an escape sequence of several characters. -/
  | intermediate
  /-- Among the parameters of a control sequence, which end with a letter. -/
  | parameters
  /-- In a command that a bell ends. -/
  | command
  /-- In the head of a string for the device. -/
  | head
  /-- In a string for the device. -/
  | body
deriving DecidableEq

namespace Scan

/-- Tab, line feed, form feed and carriage return are shown. -/
def isLayout (c : Char) : Bool := c = '\t' || c = '\n' || c = '\x0c' || c = '\r'

/-- Other controls are not shown. -/
def isControl (c : Char) : Bool := c.toNat < 0x20 || c.toNat = 0x7F

/-- A string ends with the byte of its terminator, wherever that occurs. -/
def endsBody (c : Char) : Bool := (String.utf8EncodeChar c).contains 0x9C

/-- Where a terminal is after a character of a sequence that is not a control. -/
def follow : Scan → Char → Scan
  | .plain, _ => .plain
  | .escape, c =>
    if c.toNat < 0x30 then .intermediate
    else if c = '[' then .parameters
    else if c = ']' then .command
    else if c = 'P' then .head
    else if c = 'X' ∨ c = '^' ∨ c = '_' then .body
    else .plain
  | .intermediate, c => if c.toNat < 0x30 then .intermediate else .plain
  | .parameters, c => if c.toNat < 0x40 then .parameters else .plain
  | .command, _ => .command
  | .head, c => if c.toNat < 0x40 then .head else .body
  | .body, _ => .body

/-- Where a terminal is after a character, and whether it shows it. An escape begins a new sequence
and a cancel or substitute ends one, wherever they stand. -/
def step (s : Scan) (c : Char) : Scan × Bool :=
  if c = '\x1b' then (.escape, false)
  else if c = '\x18' ∨ c = '\x1a' then (.plain, false)
  else match s with
    | .plain => (.plain, isLayout c || !isControl c)
    | .command => (if c = '\x07' then .plain else .command, false)
    | .body => (if endsBody c then .plain else .body, false)
    | .head => (if isControl c || 0x7F < c.toNat then .head else follow .head c, false)
    | s =>
      if isLayout c then (.plain, true)
      else if isControl c || 0x7F < c.toNat then (s, false)
      else (follow s c, false)

def shown : Scan → List Char → List Char
  | _, [] => []
  | s, c :: cs =>
    match s.step c with
    | (s, true) => c :: shown s cs
    | (s, false) => shown s cs

end Scan

/-- The text without controls and without sequences for the terminal. -/
def visible (text : String) : String :=
  String.ofList (Scan.plain.shown text.toList)

end Synod.Text
