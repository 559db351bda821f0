import TlsGate.Text.Str
import TlsGate.Yaml.Cursor

/-!
Tokens of a YAML stream, and the reading of those that are texts of their own: scalars, anchors,
tags and directives.
-/

set_option autoImplicit false
set_option relaxedAutoImplicit false

namespace TlsGate.Yaml

inductive Directive where
  | version (major : Nat)
  | tag (handle tagPrefix : String)
  | other
  deriving DecidableEq, Repr

inductive Token where
  | streamEnd
  | directive (d : Directive)
  | documentStart
  | documentEnd
  | blockSequenceStart
  | blockMappingStart
  | blockEnd
  | flowSequenceStart
  | flowMappingStart
  | flowSequenceEnd
  | flowMappingEnd
  | blockEntry
  | flowEntry
  | key
  | value
  | alias (name : String)
  | anchor (name : String)
  | tag (handle : Option String) (suffix : String)
  | scalar (text : Str) (plain : Bool)
  deriving DecidableEq, Repr

inductive LexFault where
  | malformed
  | value
  | overflow
  deriving DecidableEq, Repr

abbrev Scan (α : Type) := Cursor → Except LexFault (α × Cursor)

def ensure (condition : Bool) : Except LexFault Unit :=
  if condition then .ok () else .error .malformed

def scanWord : Scan String := fun c => do
  let (word, c) := c.span isWordChar
  ensure !word.isEmpty
  return (String.ofList word, c)

def scanNumber : Scan Nat := fun c => do
  let (digits, c) := c.span Char.isDigit
  ensure !digits.isEmpty
  if 4300 < digits.length then throw .value
  return (digits.foldl (fun n d => 10 * n + (d.toNat - 48)) 0, c)

def scanAnchor : Scan String := fun c => do
  let (name, c) ← scanWord c.advance
  ensure (isGap c.peek || "?:,]\x7d%@`".toList.contains c.peek)
  return (name, c)

def scanHandle : Scan String := fun c => do
  ensure (c.peek = '!')
  if c.peek 1 = ' ' then return ("!", c.advance)
  let (word, after) := c.advance.span isWordChar
  ensure (after.peek = '!')
  return (String.ofList ('!' :: word ++ ['!']), after.advance)

def hexValue? (c : Char) : Option Nat :=
  if '0' ≤ c ∧ c ≤ '9' then some (c.toNat - 48)
  else if 'a' ≤ c ∧ c ≤ 'f' then some (c.toNat - 87)
  else if 'A' ≤ c ∧ c ≤ 'F' then some (c.toNat - 55)
  else none

def scanHex (digits : Nat) : Scan Nat := fun c => do
  let some values := (List.range digits).mapM fun k => hexValue? (c.peek k) | throw .malformed
  return (values.foldl (fun n d => 16 * n + d) 0, c.skip digits)

def scanEscapedBytes : (fuel : Nat) → Scan Bytes
  | 0, c => .ok ([], c)
  | fuel + 1, c => do
    if c.peek ≠ '%' then return ([], c)
    let (byte, c) ← scanHex 2 c.advance
    let (more, c) ← scanEscapedBytes fuel c
    return (byte.toUInt8 :: more, c)

def isTagChar (c : Char) : Bool :=
  isWordChar c || ";/?:@&=+$,_.!~*'()[]".toList.contains c

/-- The characters of a tag; percent escapes give the UTF-8 form of further characters. -/
def scanTagChars : (fuel : Nat) → Scan (List Char)
  | 0, c => .ok ([], c)
  | fuel + 1, c => do
    let (run, c) := c.span isTagChar
    if c.peek ≠ '%' then return (run, c)
    let (escaped, c) ← scanEscapedBytes c.rest.length c
    let some text := Bytes.toString? escaped | throw .malformed
    let (more, c) ← scanTagChars fuel c
    return (run ++ text.toList ++ more, c)

def scanTagText : Scan String := fun c => do
  ensure (isTagChar c.peek || c.peek = '%')
  let (text, c) ← scanTagChars (c.rest.length + 1) c
  return (String.ofList text, c)

def scanTag : Scan Token := fun c => do
  let (token, c) ←
    if c.peek 1 = '<' then do
      let (text, c) ← scanTagText (c.skip 2)
      ensure (c.peek = '>')
      pure (Token.tag none text, c.advance)
    else if isGap (c.peek 1) then pure (Token.tag none "!", c.advance)
    else do
      let (named, c) ←
        if ((c.rest.drop 1).takeWhile (!isSpaceOrEnd ·)).contains '!' then scanHandle c
        else pure ("!", c.advance)
      let (text, c) ← scanTagText c
      pure (Token.tag (some named) text, c)
  ensure (isSpaceOrEnd c.peek)
  return (token, c)

def scanIgnoredLine : Scan Unit := fun c => do
  let c := c.skipWhile (· = ' ')
  let c := if c.peek = '#' then c.skipLine else c
  ensure (isLineEnd c.peek)
  return ((), c.lineBreak.2)

def scanDirective : Scan Token := fun c => do
  let (name, c) ← scanWord c.advance
  ensure (isSpaceOrEnd c.peek)
  let (directive, c) ←
    if name = "YAML" then do
      let (major, c) ← scanNumber (c.skipWhile (· = ' '))
      ensure (c.peek = '.')
      let (_, c) ← scanNumber c.advance
      ensure (isSpaceOrEnd c.peek)
      pure (Directive.version major, c)
    else if name = "TAG" then do
      let (named, c) ← scanHandle (c.skipWhile (· = ' '))
      ensure (c.peek = ' ')
      let (text, c) ← scanTagText (c.skipWhile (· = ' '))
      ensure (isSpaceOrEnd c.peek)
      pure (Directive.tag named text, c)
    else pure (Directive.other, c.skipLine)
  let ((), c) ← scanIgnoredLine c
  return (.directive directive, c)

/-! ## Quoted scalars -/

def scanQuotedBreaks : (fuel : Nat) → Scan (List Char)
  | 0, c => .ok ([], c)
  | fuel + 1, c => do
    ensure !c.atSeparator
    let c := c.skipWhile fun ch => ch = ' ' || ch = '\t'
    match c.lineBreak with
    | (none, _) => return ([], c)
    | (some ch, c) =>
      let (more, c) ← scanQuotedBreaks fuel c
      return (ch :: more, c)

/-- What a line end and the empty lines after it stand for within a scalar: one line feed is a
space, and other line ends are kept. -/
def foldBreaks (first : Char) (more : List Char) : List Char :=
  (if first ≠ '\n' then [first] else if more.isEmpty then [' '] else []) ++ more

def scanQuotedGap : Scan (List Char) := fun c => do
  let (blanks, c) := c.span fun ch => ch = ' ' || ch = '\t'
  ensure (c.peek ≠ '\x00')
  match c.lineBreak with
  | (none, _) => return (blanks, c)
  | (some ch, c) =>
    let (more, c) ← scanQuotedBreaks (c.rest.length + 1) c
    return (foldBreaks ch more, c)

def escapes : List (Char × Char) :=
  [('0', '\x00'), ('a', '\x07'), ('b', '\x08'), ('t', '\t'), ('\t', '\t'), ('n', '\n'),
    ('v', '\x0b'), ('f', '\x0c'), ('r', '\r'), ('e', '\x1b'), (' ', ' '), ('"', '"'), ('\\', '\\'),
    ('/', '/'), ('N', '\u0085'), ('_', '\u00a0'), ('L', '\u2028'), ('P', '\u2029')]

def escapeDigits? : Char → Option Nat
  | 'x' => some 2
  | 'u' => some 4
  | 'U' => some 8
  | _ => none

/-- The code point with the number of an escape. A number that does not fit into 31 bits is another
fault than one that is only too large. -/
def codePointOf (code : Nat) : Except LexFault CodePoint :=
  match CodePoint.ofNat? code with
  | some point => .ok point
  | none => .error (if 0x7FFFFFFF < code then .overflow else .value)

def scanEscape : Scan (List CodePoint) := fun c => do
  let ch := c.peek
  if let some (_, escaped) := escapes.find? (·.1 = ch) then return ([.char escaped], c.advance)
  if let some digits := escapeDigits? ch then
    let (code, c) ← scanHex digits c.advance
    return ([← codePointOf code], c)
  match c.lineBreak with
  | (none, _) => throw .malformed
  | (some _, c) =>
    let (breaks, c) ← scanQuotedBreaks (c.rest.length + 1) c
    return (breaks.map .char, c)

def scanQuotedRun (double : Bool) : (fuel : Nat) → Scan (List CodePoint)
  | 0, c => .ok ([], c)
  | fuel + 1, c => do
    let (run, c) := c.span fun ch => !isGap ch && ch ≠ '\'' && ch ≠ '"' && ch ≠ '\\'
    let ch := c.peek
    if !double && ch = '\'' && c.peek 1 = '\'' then
      let (more, c) ← scanQuotedRun double fuel (c.skip 2)
      return (run.map .char ++ .char '\'' :: more, c)
    else if (double && ch = '\'') || (!double && (ch = '"' || ch = '\\')) then
      let (more, c) ← scanQuotedRun double fuel c.advance
      return (run.map .char ++ .char ch :: more, c)
    else if double && ch = '\\' then
      let (escaped, c) ← scanEscape c.advance
      let (more, c) ← scanQuotedRun double fuel c
      return (run.map .char ++ escaped ++ more, c)
    else return (run.map .char, c)

def scanQuotedRest (quote : Char) : (fuel : Nat) → Scan (List CodePoint)
  | 0, _ => .error .malformed
  | fuel + 1, c => do
    if c.peek = quote then return ([], c)
    let (gap, c) ← scanQuotedGap c
    let (run, c) ← scanQuotedRun (quote = '"') (c.rest.length + 1) c
    let (more, c) ← scanQuotedRest quote fuel c
    return (gap.map .char ++ run ++ more, c)

def scanQuoted : Scan Token := fun c => do
  let quote := c.peek
  let (run, c) ← scanQuotedRun (quote = '"') (c.rest.length + 1) c.advance
  let (more, c) ← scanQuotedRest quote (c.rest.length + 2) c
  return (.scalar ⟨run ++ more⟩ false, c.advance)

/-! ## Block scalars -/

/-- What happens to the line ends after the last line of a block scalar. -/
inductive Chomping where
  | strip
  | clip
  | keep
  deriving DecidableEq, Repr

def chomping? : Char → Option Chomping
  | '+' => some .keep
  | '-' => some .strip
  | _ => none

def scanIndicators : Scan (Chomping × Option Nat) := fun c => do
  let digit? := fun ch : Char => if ch.isDigit then some (ch.toNat - 48) else none
  let (chomping, increment, c) :=
    match chomping? c.peek, digit? c.peek with
    | some chomping, _ =>
      match digit? (c.peek 1) with
      | some n => (chomping, some n, c.skip 2)
      | none => (chomping, none, c.advance)
    | none, some n =>
      match chomping? (c.peek 1) with
      | some chomping => (chomping, some n, c.skip 2)
      | none => (.clip, some n, c.advance)
    | none, none => (.clip, none, c)
  ensure (increment ≠ some 0)
  ensure (isSpaceOrEnd c.peek)
  return ((chomping, increment), c)

/-- The empty lines before a block scalar whose indentation is found out, and the widest of them
and of the blanks before the first line. -/
def blockIndentation : (fuel : Nat) → (widest : Nat) → Cursor → List Char × Nat × Cursor
  | 0, widest, c => ([], widest, c)
  | fuel + 1, widest, c =>
    if c.peek = ' ' then
      let c := c.advance
      blockIndentation fuel (max widest c.column) c
    else match c.lineBreak with
      | (none, _) => ([], widest, c)
      | (some ch, c) =>
        let (more, widest, c) := blockIndentation fuel widest c
        (ch :: more, widest, c)

def skipIndent (indent : Nat) (c : Cursor) : Cursor :=
  c.skip (min (indent - c.column) (c.rest.takeWhile (· = ' ')).length)

def blockBreaks (indent : Nat) : (fuel : Nat) → Cursor → List Char × Cursor
  | 0, c => ([], c)
  | fuel + 1, c =>
    let c := skipIndent indent c
    match c.lineBreak with
    | (none, _) => ([], c)
    | (some ch, c) =>
      let (more, c) := blockBreaks indent fuel c
      (ch :: more, c)

def blockLines (folded : Bool) (indent : Nat) :
    (fuel : Nat) → (breaks : List Char) → Cursor → List Char × Option Char × List Char × Cursor
  | 0, breaks, c => ([], none, breaks, c)
  | fuel + 1, breaks, c =>
    let startsBlank := c.peek = ' ' || c.peek = '\t'
    let (line, c) := c.span (!isBreak ·)
    let (ending, c) := c.lineBreak
    let (after, c) := blockBreaks indent (c.rest.length + 1) c
    if c.column = indent && c.peek ≠ '\x00' then
      let joint :=
        if folded && ending = some '\n' && !startsBlank && !(c.peek = ' ' || c.peek = '\t') then
          if after.isEmpty then [' '] else []
        else ending.toList
      let (more, ending, after, c) := blockLines folded indent fuel after c
      (breaks ++ line ++ joint ++ more, ending, after, c)
    else (breaks ++ line, ending, after, c)

def scanBlockScalar (outer : Int) : Scan Token := fun c => do
  let folded := c.peek = '>'
  let ((chomping, increment), c) ← scanIndicators c.advance
  let ((), c) ← scanIgnoredLine c
  let least := (max (outer + 1) 1).toNat
  let (breaks, indent, c) := match increment with
    | none =>
      let (breaks, widest, c) := blockIndentation (c.rest.length + 1) 0 c
      (breaks, max least widest, c)
    | some n =>
      let indent := least + n - 1
      let (breaks, c) := blockBreaks indent (c.rest.length + 1) c
      (breaks, indent, c)
  let (text, ending, after, c) :=
    if c.column = indent && c.peek ≠ '\x00' then
      blockLines folded indent (c.rest.length + 1) breaks c
    else ([], none, breaks, c)
  let tail := match chomping with
    | .strip => []
    | .clip => ending.toList
    | .keep => ending.toList ++ after
  return (.scalar (String.ofList (text ++ tail)) false, c)

/-! ## Plain scalars -/

def plainLength (flow : Bool) : List Char → Nat
  | [] => 0
  | ch :: rest =>
    let next := rest.headD '\x00'
    if isGap ch || (ch = ':' && (isGap next || (flow && ",[]\x7b\x7d".toList.contains next))) ||
        (flow && ",?[]\x7b\x7d".toList.contains ch) then 0
    else plainLength flow rest + 1

/-- Spaces and line ends between the lines of a plain scalar; `none` at a document separator. -/
def plainBreaks : (fuel : Nat) → Cursor → Option (List Char) × Cursor
  | 0, c => (some [], c)
  | fuel + 1, c =>
    if c.peek = ' ' then plainBreaks fuel c.advance
    else match c.lineBreak with
      | (none, _) => (some [], c)
      | (some ch, c) =>
        if c.atSeparator then (none, c)
        else
          let (more, c) := plainBreaks fuel c
          (more.map (ch :: ·), c)

/-- What stands between two runs of a plain scalar, and whether a line ended; an empty gap ends the
scalar. -/
def plainGap (c : Cursor) : List Char × Bool × Cursor :=
  let (spaces, c) := c.span (· = ' ')
  match c.lineBreak with
  | (none, _) => (spaces, false, c)
  | (some ch, c) =>
    if c.atSeparator then ([], true, c)
    else match plainBreaks (c.rest.length + 1) c with
      | (none, c) => ([], true, c)
      | (some more, c) => (foldBreaks ch more, true, c)

/-- The runs of a plain scalar from here on, after a gap, and whether a line ended after the last
run. -/
def plainRuns (flow : Bool) (indent : Int) :
    (fuel : Nat) → (gap : List Char) → (ended : Bool) → Cursor → List Char × Bool × Cursor
  | 0, _, ended, c => ([], ended, c)
  | fuel + 1, gap, ended, c =>
    let length := if c.peek = '#' then 0 else plainLength flow c.rest
    if length = 0 then ([], ended, c)
    else
      let run := c.rest.take length
      let (next, ended, c) := plainGap (c.skip length)
      if next.isEmpty || c.peek = '#' || (!flow && (c.column : Int) < indent) then
        (gap ++ run, ended, c)
      else
        let (more, ended, c) := plainRuns flow indent fuel next ended c
        (gap ++ run ++ more, ended, c)

def scanPlain (flow : Bool) (outer : Int) (c : Cursor) : Token × Bool × Cursor :=
  let (text, ended, c) := plainRuns flow (outer + 1) (c.rest.length + 1) [] false c
  (.scalar (String.ofList text) true, ended, c)

end TlsGate.Yaml
