import TlsGate.Yaml.Token

/-!
Reading the tokens of a stream. Indentation opens and closes blocks, and a token that turns out to
be the key of a mapping, because a colon follows it on its line, gets a key token put in front of it
afterwards.
-/

set_option autoImplicit false
set_option relaxedAutoImplicit false

namespace TlsGate.Yaml

structure KeyCandidate where
  flow : Nat
  before : Nat
  required : Bool
  index : Nat
  line : Nat
  column : Nat

structure Lexer where
  cursor : Cursor
  tokens : Array Token := #[]
  flow : Nat := 0
  indent : Int := -1
  outer : List Int := []
  keyAllowed : Bool := true
  candidates : List KeyCandidate := []

namespace Lexer

abbrev Step := Lexer → Except LexFault Lexer

def emit (t : Token) (l : Lexer) : Lexer := { l with tokens := l.tokens.push t }

def insert (before : Nat) (t : Token) (l : Lexer) : Lexer :=
  { l with tokens := l.tokens.insertIdxIfInBounds before t }

def pass (n : Nat) (l : Lexer) : Lexer := { l with cursor := l.cursor.skip n }

def skipBlank : (fuel : Nat) → Lexer → Lexer
  | 0, l => l
  | fuel + 1, l =>
    let c := l.cursor.skipWhile (· = ' ')
    let c := if c.peek = '#' then c.skipLine else c
    match c.lineBreak with
    | (none, _) => { l with cursor := c }
    | (some _, c) =>
      skipBlank fuel { l with cursor := c, keyAllowed := l.keyAllowed || l.flow = 0 }

def toNextToken (l : Lexer) : Lexer :=
  let l := if l.cursor.index = 0 && l.cursor.peek = '\uFEFF' then l.pass 1 else l
  skipBlank (l.cursor.rest.length + 1) l

def dropStale : Step := fun l => do
  let (kept, stale) := l.candidates.partition fun k =>
    k.line = l.cursor.line && l.cursor.index - k.index ≤ 1024
  ensure !(stale.any (·.required))
  return { l with candidates := kept }

def dropCandidate : Step := fun l => do
  let (here, others) := l.candidates.partition (·.flow = l.flow)
  ensure !(here.any (·.required))
  return { l with candidates := others }

def noteCandidate : Step := fun l => do
  if !l.keyAllowed then return l
  let l ← l.dropCandidate
  let c := l.cursor
  let required := l.flow = 0 && l.indent = c.column
  return { l with candidates := ⟨l.flow, l.tokens.size, required, c.index, c.line, c.column⟩ ::
    l.candidates }

def unwind (column : Int) (l : Lexer) : Lexer :=
  if l.flow ≠ 0 then l else go l l.outer
where
  go (l : Lexer) : List Int → Lexer
    | [] => if column < l.indent then { l with indent := -1, outer := [] }.emit .blockEnd else l
    | indent :: outer =>
      if column < l.indent then
        go ({ l with indent := indent, outer := outer }.emit .blockEnd) outer
      else l

def opensBlock (column : Nat) (l : Lexer) : Option Lexer :=
  if l.indent < column then
    some { l with indent := column, outer := l.indent :: l.outer }
  else none

def unindented : Step := fun l => do
  let l ← (l.unwind (-1)).dropCandidate
  return { l with keyAllowed := false }

def flowStart (t : Token) : Step := fun l => do
  let l ← l.noteCandidate
  return ({ l with flow := l.flow + 1, keyAllowed := true }.pass 1).emit t

def flowEnd (t : Token) : Step := fun l => do
  let l ← l.dropCandidate
  return ({ l with flow := l.flow - 1, keyAllowed := false }.pass 1).emit t

def flowEntry : Step := fun l => do
  let l ← l.dropCandidate
  return ({ l with keyAllowed := true }.pass 1).emit .flowEntry

def openFor (start : Token) : Step := fun l => do
  if l.flow ≠ 0 then return l
  ensure l.keyAllowed
  return (l.opensBlock l.cursor.column).elim l (·.emit start)

def blockEntry : Step := fun l => do
  let l ← (← l.openFor .blockSequenceStart).dropCandidate
  return ({ l with keyAllowed := true }.pass 1).emit .blockEntry

def keyMark : Step := fun l => do
  let l ← (← l.openFor .blockMappingStart).dropCandidate
  return ({ l with keyAllowed := l.flow = 0 }.pass 1).emit .key

def valueMark : Step := fun l => do
  match l.candidates.find? (·.flow = l.flow) with
  | some k =>
    let l := { l with candidates := l.candidates.filter (·.flow ≠ l.flow), keyAllowed := false }
    let l := l.insert k.before .key
    let l := if l.flow ≠ 0 then l
      else (l.opensBlock k.column).elim l (·.insert k.before .blockMappingStart)
    return (l.pass 1).emit .value
  | none =>
    let l ← l.openFor .blockMappingStart
    let l ← { l with keyAllowed := l.flow = 0 }.dropCandidate
    return (l.pass 1).emit .value

def text (scan : Scan Token) : Step := fun l => do
  let l ← l.noteCandidate
  let (token, c) ← scan l.cursor
  return { l with cursor := c, keyAllowed := false }.emit token

def blockText : Step := fun l => do
  let l ← { l with keyAllowed := true }.dropCandidate
  let (token, c) ← scanBlockScalar l.indent l.cursor
  return { l with cursor := c }.emit token

def plainText : Step := fun l => do
  let l ← l.noteCandidate
  let (token, ended, c) := scanPlain (l.flow ≠ 0) l.indent l.cursor
  return { l with cursor := c, keyAllowed := ended }.emit token

def finish : Step := fun l => do
  let l ← l.unindented
  return { l with candidates := [] }.emit .streamEnd

def startsPlain (l : Lexer) : Bool :=
  let ch := l.cursor.peek
  !(isGap ch || "-?:,[]\x7b\x7d#&*!|>'\"%@`".toList.contains ch) ||
    (!isGap (l.cursor.peek 1) && (ch = '-' || (l.flow = 0 && (ch = '?' || ch = ':'))))

def read : Step := fun l => do
  let c := l.cursor
  let ch := c.peek
  let inFlow := l.flow ≠ 0
  let spaced := isGap (c.peek 1)
  if ch = '%' && c.column = 0 then
    let l ← l.unindented
    let (token, c) ← scanDirective l.cursor
    return { l with cursor := c }.emit token
  else if c.column = 0 && c.atSeparator then
    return ((← l.unindented).pass 3).emit (if ch = '-' then .documentStart else .documentEnd)
  else if ch = '[' then l.flowStart .flowSequenceStart
  else if ch = '{' then l.flowStart .flowMappingStart
  else if ch = ']' then l.flowEnd .flowSequenceEnd
  else if ch = '}' then l.flowEnd .flowMappingEnd
  else if ch = ',' then l.flowEntry
  else if ch = '-' && spaced then l.blockEntry
  else if ch = '?' && (inFlow || spaced) then l.keyMark
  else if ch = ':' && (inFlow || spaced) then l.valueMark
  else if ch = '*' then l.text fun c => do
    let (name, c) ← scanAnchor c
    return (.alias name, c)
  else if ch = '&' then l.text fun c => do
    let (name, c) ← scanAnchor c
    return (.anchor name, c)
  else if ch = '!' then l.text scanTag
  else if (ch = '|' || ch = '>') && !inFlow then l.blockText
  else if ch = '\'' || ch = '"' then l.text scanQuoted
  else if l.startsPlain then l.plainText
  else throw .malformed

def run : (fuel : Nat) → Lexer → Array Token × Option LexFault
  | 0, l => (l.tokens, some .malformed)
  | fuel + 1, l =>
    let l := l.toNextToken
    match l.dropStale with
    | .error fault => (l.tokens, some fault)
    | .ok l =>
      let l := l.unwind l.cursor.column
      if l.cursor.peek = '\x00' then
        match l.finish with
        | .ok l => (l.tokens, none)
        | .error fault => (l.tokens, some fault)
      else
        match l.read with
        | .ok next => run fuel next
        | .error fault => (l.tokens, some fault)

end Lexer

def tokens (stream : List Char) : List Token × Option LexFault :=
  let (found, fault) := Lexer.run (stream.length + 2) { cursor := ⟨stream, 0, 0, 0⟩ }
  (found.toList, fault)

end TlsGate.Yaml
