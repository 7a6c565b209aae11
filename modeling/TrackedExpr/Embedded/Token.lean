import TrackedExpr.Embedded.Quotation

/-!
# Token trees of the host language

Source text is a sequence of names, punctuation characters and literals, in which
brackets group what they enclose.  Blanks and comments mean nothing, except that a
documentation comment stands for an attribute.

**Definitions.**
* `TokenTree`, `TokenTree.chars`;
* `scan?`: the tokens of a text with the brackets among them;
* `nest?`: the groups that the brackets make;
* `tokens?`: the token trees of a text; nothing if it has none.
-/

namespace TrackedExpr
namespace Embedded

/-- The kinds of brackets. -/
inductive Delimiter
  | parenthesis
  | bracket
  | brace
deriving DecidableEq, Repr

namespace Delimiter

def opening : Delimiter → Char
  | .parenthesis => '('
  | .bracket => '['
  | .brace => '\x7b'

def closing : Delimiter → Char
  | .parenthesis => ')'
  | .bracket => ']'
  | .brace => '\x7d'

def all : List Delimiter := [.parenthesis, .bracket, .brace]

end Delimiter

/-- What a literal means to a listing. -/
inductive Meaning
  | text (value : List Char)
  | numeral (n : Numeral)
  | other

/-- A token, or the tokens between two brackets. -/
inductive TokenTree
  | word (text : List Char)
  /-- a punctuation character, and whether another one follows directly -/
  | punct (c : Char) (joint : Bool)
  | literal (text : List Char) (meaning : Meaning)
  | group (delimiter : Delimiter) (inner : List TokenTree)

namespace TokenTree

mutual

/-- The text of a token tree without blanks. -/
def chars : TokenTree → List Char
  | .word text => text
  | .punct c _ => [c]
  | .literal text _ => text
  | .group d inner => d.opening :: (allChars inner ++ [d.closing])

/-- The text of token trees without blanks. -/
def allChars : List TokenTree → List Char
  | [] => []
  | t :: ts => chars t ++ allChars ts

end

end TokenTree

/-- The text of a text constant.  A zero in front of an octal digit is written by its code. -/
def quoteText : List Char → List Char
  | [] => []
  | '\x00' :: d :: rest =>
      if '0' ≤ d ∧ d ≤ '7' then ['\\', 'x', '0', '0'] ++ quoteText (d :: rest)
      else ['\\', '0'] ++ quoteText (d :: rest)
  | c :: rest => Text.escape c ++ quoteText rest

def textConstant (cs : List Char) : List Char := '"' :: (quoteText cs ++ ['"'])

section Scanning

/-- A token, or one of two brackets. -/
inductive Piece
  | opening (d : Delimiter)
  | closing (d : Delimiter)
  | leaf (t : TokenTree)

/-- The beginning of a text that has another text behind it. -/
def before (cs rest : List Char) : List Char := cs.take (cs.length - rest.length)

/-- Characters between tokens. -/
def isBlank (c : Char) : Bool :=
  c = ' ' || ('\t' ≤ c && c ≤ '\r') ||
    c ∈ ['\u0085', '\u00a0', '\u1680', '\u200e', '\u200f', '\u2028', '\u2029', '\u202f',
      '\u205f', '\u3000'] ||
    ('\u2000' ≤ c && c ≤ '\u200a')

/-- The text behind a comment in which `depth` further comments are open. -/
def afterComment? (depth : Nat) : List Char → Option (List Char)
  | [] => none
  | '/' :: '*' :: rest => afterComment? (depth + 1) rest
  | '*' :: '/' :: rest =>
      match depth with
      | 0 => some rest
      | depth + 1 => afterComment? depth rest
  | _ :: rest => afterComment? depth rest

/-- What a comment is: nothing, or documentation of what follows or of what surrounds it. -/
inductive CommentKind
  | plain
  | outer
  | inner

/-- A line without its end, of which a carriage return may be part. -/
def lineContent (content rest : List Char) : List Char :=
  if !rest.isEmpty && content.getLast? = some '\r' then content.dropLast else content

/-- The comment at the beginning of a text: its kind, its content and the text behind it. -/
def comment? (cs : List Char) : Option (CommentKind × List Char × List Char) :=
  let line := fun (kind : CommentKind) (rest : List Char) =>
    let after := rest.dropWhile (· ≠ '\n')
    some (kind, lineContent (rest.takeWhile (· ≠ '\n')) after, after)
  let block := fun (kind : CommentKind) (rest : List Char) =>
    (afterComment? 0 rest).map fun after =>
      (kind, (before rest after).dropLast.dropLast, after)
  match cs with
  | '/' :: '/' :: '!' :: rest => line .inner rest
  | '/' :: '/' :: '/' :: '/' :: rest => line .plain rest
  | '/' :: '/' :: '/' :: rest => line .outer rest
  | '/' :: '/' :: rest => line .plain rest
  | '/' :: '*' :: '!' :: rest => block .inner rest
  | '/' :: '*' :: '*' :: '*' :: rest => block .plain ('*' :: '*' :: rest)
  | '/' :: '*' :: '*' :: '/' :: rest => some (.plain, [], rest)
  | '/' :: '*' :: '*' :: rest => block .outer rest
  | '/' :: '*' :: rest => block .plain rest
  | _ => none

/-- Whether every carriage return is part of a line end. -/
def wholeLines : List Char → Bool
  | [] => true
  | '\r' :: '\n' :: rest => wholeLines rest
  | '\r' :: _ => false
  | _ :: rest => wholeLines rest

/-- The attribute that a documentation comment stands for. -/
def documentation (inner : Bool) (content : List Char) : List Piece :=
  let body := TokenTree.group .bracket
    [ .word "doc".toList, .punct '=' false, .literal (textConstant content) (.text content) ]
  Piece.leaf (.punct '#' false) ::
    ((if inner then [Piece.leaf (.punct '!' false)] else []) ++ [Piece.leaf body])

/-- The tokens that a comment stands for. -/
def commentPieces? (kind : CommentKind) (content : List Char) : Option (List Piece) :=
  match kind with
  | .plain => some []
  | .outer => if wholeLines content then some (documentation false content) else none
  | .inner => if wholeLines content then some (documentation true content) else none

/-- The literal at the beginning of a text, and the text behind it. -/
def literal? (cs : List Char) : Option (Meaning × List Char) :=
  match quoted? cs with
  | some (some value, rest) => some (.text value, rest)
  | some (none, rest) => some (.other, rest)
  | none =>
      ((afterFloat? cs).orElse fun _ => afterInteger? cs).map fun rest =>
        match numeral? (before cs rest) with
        | some n => (.numeral n, rest)
        | none => (.other, rest)

/-- Names that cannot be written as raw names. -/
def neverRaw : List (List Char) := ["_", "super", "self", "Self", "crate"].map String.toList

/-- The text behind a name, raw or not. -/
def afterWord? (cs : List Char) : Option (List Char) :=
  match cs with
  | 'r' :: '#' :: rest =>
      match afterName? rest with
      | some after => if before rest after ∈ neverRaw then none else some after
      | none => none
  | cs => afterName? cs

/-- Beginnings of quotations, which are no names. -/
def quotationStarts : List (List Char) :=
  ["r\"", "r#\"", "r##", "b\"", "b'", "br\"", "br#", "c\"", "cr\"", "cr#"].map String.toList

/-- The name at the beginning of a text, and the text behind it. -/
def word? (cs : List Char) : Option (TokenTree × List Char) :=
  if quotationStarts.any fun s => s.isPrefixOf cs then none
  else (afterWord? cs).map fun rest => (.word (before cs rest), rest)

def punctuation : List Char := "~!@#$%^&*-=+|;:,<.>/?'".toList

/-- Whether a text begins with punctuation that opens no comment. -/
def startsPunct : List Char → Bool
  | '/' :: '/' :: _ => false
  | '/' :: '*' :: _ => false
  | c :: _ => c ∈ punctuation
  | [] => false

/-- The punctuation character at the beginning of a text, and the text behind it.  An apostrophe
has to stand in front of a name that is not followed by another. -/
def punct? (cs : List Char) : Option (TokenTree × List Char) :=
  if !startsPunct cs then none
  else
    match cs with
    | '\'' :: rest =>
        match afterWord? rest with
        | some ('\'' :: _) => none
        | some ('#' :: _) =>
            if ['r', '#'].isPrefixOf rest then some (.punct '\'' true, rest) else none
        | some _ => some (.punct '\'' true, rest)
        | none => none
    | c :: rest => some (.punct c (startsPunct rest), rest)
    | [] => none

/-- The token at the beginning of a text, and the text behind it. -/
def leaf? (cs : List Char) : Option (TokenTree × List Char) :=
  match literal? cs with
  | some (meaning, rest) => some (.literal (before cs rest) meaning, rest)
  | none => (punct? cs).orElse fun _ => word? cs

/-- The bracket that a character is. -/
def bracket? (c : Char) : Option Piece :=
  match Delimiter.all.find? fun d => d.opening = c with
  | some d => some (.opening d)
  | none => (Delimiter.all.find? fun d => d.closing = c).map Piece.closing

/-- What stands at the beginning of a text, and the text behind it. -/
def pieces? (cs : List Char) : Option (List Piece × List Char) :=
  match comment? cs with
  | some (kind, content, rest) => (commentPieces? kind content).map fun ps => (ps, rest)
  | none =>
      match cs with
      | [] => none
      | c :: rest =>
          if isBlank c then some ([], rest)
          else
            match bracket? c with
            | some p => some ([p], rest)
            | none => (leaf? cs).map fun e => ([.leaf e.1], e.2)

/-- The tokens of a text and the brackets among them. -/
def scan? : List Char → Option (List Piece)
  | [] => some []
  | c :: rest =>
      match pieces? (c :: rest) with
      | some (ps, after) =>
          if after.length ≤ rest.length then (scan? after).map fun more => ps ++ more else none
      | none => none
termination_by cs => cs.length

end Scanning

/-- Groups what stands between two brackets.  `outer` holds the groups that are open, with what
came before them; `done` is what came so far in the innermost one, the last first. -/
def nest? : List Piece → List (Delimiter × List TokenTree) → List TokenTree →
    Option (List TokenTree)
  | [], [], done => some done.reverse
  | [], _ :: _, _ => none
  | .leaf t :: rest, outer, done => nest? rest outer (t :: done)
  | .opening d :: rest, outer, done => nest? rest ((d, done) :: outer) []
  | .closing d :: rest, (e, around) :: outer, done =>
      if d = e then nest? rest outer (.group d done.reverse :: around) else none
  | .closing _ :: _, [], _ => none

/-- The token trees of a text.  A byte order mark in front of it is skipped. -/
def tokens? (cs : List Char) : Option (List TokenTree) :=
  let body := match cs with
    | '\ufeff' :: rest => rest
    | cs => cs
  (scan? body).bind fun ps => nest? ps [] []

end Embedded
end TrackedExpr
