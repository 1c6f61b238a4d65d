import SuiteScribe.Text.Basic

/-!
# Comma-separated records

A record is a line of fields with commas between them.  A field may stand in quotes; it then may
hold commas and line ends, and a quote in it is written twice.  `Record.read` reads the first record
of a text, past lines that are empty.
-/

namespace SuiteScribe.Record

open Text (byte)

/-- What is wrong with the quotes of a record. -/
inductive QuoteFault where
  | bare
  | unmatched
deriving DecidableEq

/-- The fault in words. -/
def QuoteFault.message : QuoteFault → Text
  | bare => text "bare \" in non-quoted-field"
  | unmatched => text "extraneous or missing \" in quoted-field"

/-- Why no record was read: there is none, or the quotes are wrong at a place.  Lines and columns
count from one, and columns in bytes. -/
inductive Error where
  | none
  | quotes (start line column : Nat) (fault : QuoteFault)

/-- The error in words. -/
def Error.message : Error → Text
  | none => text "EOF"
  | quotes start line column fault =>
    (if start = line then text "parse error on line "
      else text "record on line " ++ Text.ofNat start ++ text "; parse error on line ") ++
      Text.ofNat line ++ text ", column " ++ Text.ofNat column ++ text ": " ++ fault.message

/-- A line end is a line feed, also where a carriage return stands before it.  A carriage return at
the end of the text is left out. -/
def normalize (line : Text) : Text :=
  match line.reverse with
  | a :: b :: rest =>
    if a = byte '\n' ∧ b = byte '\r' then (a :: rest).reverse
    else if a = byte '\r' then (b :: rest).reverse
    else line
  | [a] => if a = byte '\r' then [] else line
  | [] => line

/-- The lines of a text, each with its line end. -/
def lines : Text → List Text
  | [] => []
  | b :: rest =>
    if b = byte '\n' then [b] :: lines rest
    else
      match lines rest with
      | [] => [[b]]
      | line :: more => (b :: line) :: more

/-- Whether a line holds nothing but its end. -/
def isEmpty (line : Text) : Bool :=
  line = [] || line = [byte '\n']

/-- How far a record has been read. -/
structure Position where
  /-- The line that the record starts on. -/
  start : Nat
  /-- The line that is being read. -/
  line : Nat
  column : Nat
  /-- How many lines have been asked for. -/
  asked : Nat

/-- Moves on in the line. -/
def Position.advance (p : Position) (n : Nat) : Position :=
  { p with column := p.column + n }

mutual

/-- Reads the fields of a line; `later` are the lines after it. -/
def fields : (fuel : Nat) → Position → (line : Text) → (later : List Text) →
    Except Error (List Text)
  | 0, _, _, _ => .error .none
  | fuel + 1, p, line, later =>
    match line with
    | [] => .ok [[]]
    | b :: rest =>
      if b = byte '"' then quoted fuel (p.advance 1) [] rest later
      else
        let field := line.takeWhile (· ≠ byte ',')
        let after := line.dropWhile (· ≠ byte ',')
        if byte '"' ∈ field then
          let before := field.takeWhile (· ≠ byte '"')
          .error (.quotes p.start p.asked (p.column + before.length) .bare)
        else
          match after with
          | [] => .ok [field.filter (· ≠ byte '\n')]
          | _ :: after => do
            let more ← fields fuel (p.advance (field.length + 1)) after later
            return field :: more

/-- Reads on in a quoted field, given what has been read of it. -/
def quoted : (fuel : Nat) → Position → (read line : Text) → (later : List Text) →
    Except Error (List Text)
  | 0, _, _, _, _ => .error .none
  | fuel + 1, p, read, line, later =>
    let before := line.takeWhile (· ≠ byte '"')
    match line.dropWhile (· ≠ byte '"') with
    | _ :: after =>
      let read := read ++ before
      let p := p.advance (before.length + 1)
      match after with
      | [] => .ok [read]
      | b :: rest =>
        if b = byte '"' then quoted fuel (p.advance 1) (read ++ [b]) rest later
        else if b = byte ',' then do
          let more ← fields fuel (p.advance 1) rest later
          return read :: more
        else if isEmpty after then .ok [read]
        else .error (.quotes p.start p.asked (p.column - 1) .unmatched)
    | [] =>
      if line = [] then .error (.quotes p.start p.line p.column .unmatched)
      else
        let p := { p.advance line.length with asked := p.asked + 1 }
        match later with
        | [] => quoted fuel p (read ++ line) [] []
        | next :: later =>
          let p := if next = [] then p else { p with line := p.line + 1, column := 1 }
          quoted fuel p (read ++ line) next later

end

/-- Reads the first record of some lines, the first of which has this number. -/
def firstOf (size : Nat) : (number : Nat) → List Text → Except Error (List Text)
  | _, [] => .error .none
  | number, line :: later =>
    if isEmpty line then firstOf size (number + 1) later
    else fields (2 * size + 2) ⟨number, number, 1, number⟩ line later

/-- Reads the first record of a text. -/
def read (t : Text) : Except Error (List Text) :=
  firstOf t.length 1 ((lines t).map normalize)

end SuiteScribe.Record
