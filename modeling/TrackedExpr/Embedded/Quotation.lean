import TrackedExpr.Embedded.Numeral

/-!
# Quotations of the host language

Text, bytes and single characters are written between quotes.  A style says which
characters may stand for themselves and which escapes there are.

**Definitions.**
* `QuoteStyle`, with `QuoteStyle.text`, `QuoteStyle.bytes`, `QuoteStyle.terminated`;
* `cooked?`: text with escapes up to the closing quote;
* `raw?`: text without escapes up to the closing quote and its hashes;
* `quoted?`: a quotation of any form, with the text that it denotes.
-/

namespace TrackedExpr
namespace Embedded

section Escapes

/-- Two hexadecimal digits, the first below `limit`. -/
def hexPair? (limit : Nat) : List Char → Option (Nat × List Char)
  | a :: b :: rest =>
      match Text.hexDigit? a, Text.hexDigit? b with
      | some x, some y => if x < limit then some (16 * x + y, rest) else none
      | _, _ => none
  | _ => none

/-- A code point of at most six digits, up to its closing brace; `count` digits of value `n` came
before. -/
def codePoint? (count n : Nat) : List Char → Option (Char × List Char)
  | [] => none
  | c :: rest =>
      if c = '}' then
        if count = 0 then none else (Text.ofCodePoint? n).map fun char => (char, rest)
      else if c = '_' then if count = 0 then none else codePoint? count n rest
      else
        match Text.hexDigit? c with
        | some d => if count = 6 then none else codePoint? (count + 1) (16 * n + d) rest
        | none => none

/-- The escape of a code point, behind the backslash. -/
def unicodeEscape? : List Char → Option (Char × List Char)
  | 'u' :: '{' :: rest => codePoint? 0 0 rest
  | _ => none

def byteEscape? (limit : Nat) : List Char → Option (Char × List Char)
  | 'x' :: rest => (hexPair? limit rest).map fun e => (Char.ofNat e.1, e.2)
  | _ => none

/-- The escape by a letter, behind the backslash. -/
def letterEscape? : List Char → Option (Char × List Char)
  | c :: rest => (Text.ofEscapeLetter? c).map fun char => (char, rest)
  | [] => none

/-- The text behind blanks and line ends, in front of at least one other character. -/
def afterBlanks? : List Char → Option (List Char)
  | [] => none
  | '\r' :: '\n' :: rest => afterBlanks? rest
  | '\r' :: _ => none
  | c :: rest => if c = ' ' || c = '\t' || c = '\n' then afterBlanks? rest else some (c :: rest)

end Escapes

section Styles

/-- Which characters stand for themselves and which escapes there are. -/
structure QuoteStyle where
  plain : Char → Bool
  escape : List Char → Option (Char × List Char)

namespace QuoteStyle

/-- Text: every character, escapes of ASCII and of code points. -/
def text : QuoteStyle where
  plain := fun _ => true
  escape := fun cs => byteEscape? 8 cs <|> unicodeEscape? cs <|> letterEscape? cs

/-- Bytes: ASCII, escapes of bytes. -/
def bytes : QuoteStyle where
  plain := fun c => c.toNat < 128
  escape := fun cs => byteEscape? 16 cs <|> letterEscape? cs

/-- Text that is ended by a zero, and therefore holds none. -/
def terminated : QuoteStyle where
  plain := fun c => c != '\x00'
  escape := fun cs =>
    (byteEscape? 16 cs <|> unicodeEscape? cs <|> letterEscape? cs).filter fun e => e.1 != '\x00'

end QuoteStyle

end Styles

section Bodies

/-- Puts a character in front of a text that was read. -/
def prepend (c : Char) (r : Option (List Char × List Char)) : Option (List Char × List Char) :=
  r.map fun e => (c :: e.1, e.2)

/-- Text with escapes up to the closing quote, and the text behind that.  A backslash at the end
of a line takes the following blanks with it. -/
def cooked? (style : QuoteStyle) (cs : List Char) : Option (List Char × List Char) :=
  match cs with
  | [] => none
  | '"' :: rest => some ([], rest)
  | '\r' :: '\n' :: rest => prepend '\n' (cooked? style rest)
  | '\r' :: _ => none
  | '\\' :: rest =>
      if rest.head? = some '\n' || rest.head? = some '\r' then
        match afterBlanks? rest with
        | some after => if after.length ≤ rest.length then cooked? style after else none
        | none => none
      else
        match style.escape rest with
        | some (c, after) =>
            if after.length ≤ rest.length then prepend c (cooked? style after) else none
        | none => none
  | c :: rest => if style.plain c then prepend c (cooked? style rest) else none
termination_by cs.length

/-- Text without escapes up to the closing quote and so many hashes, and the text behind. -/
def raw? (plain : Char → Bool) (hashes : Nat) : List Char → Option (List Char × List Char)
  | [] => none
  | '\r' :: '\n' :: rest => prepend '\r' (prepend '\n' (raw? plain hashes rest))
  | '\r' :: _ => none
  | c :: rest =>
      if c = '"' && (List.replicate hashes '#').isPrefixOf rest then some ([], rest.drop hashes)
      else if plain c then prepend c (raw? plain hashes rest)
      else none

/-- A raw text from its first hash or quote on. -/
def rawBody? (plain : Char → Bool) (cs : List Char) : Option (List Char × List Char) :=
  let hashes := (cs.takeWhile (· = '#')).length
  match cs.drop hashes with
  | '"' :: rest => if hashes ≤ 255 then raw? plain hashes rest else none
  | _ => none

/-- A single character up to its closing quote; the text behind that. -/
def afterCharacter? (style : QuoteStyle) : List Char → Option (List Char)
  | '\\' :: rest =>
      match style.escape rest with
      | some (_, '\'' :: after) => some after
      | _ => none
  | c :: '\'' :: after => if style.plain c then some after else none
  | _ => none

end Bodies

/-- A quotation at the beginning of a text: what it denotes if it is text, and the text behind
it, suffix included. -/
def quoted? (cs : List Char) : Option (Option (List Char) × List Char) :=
  let asText := fun (e : List Char × List Char) => (some e.1, afterSuffix e.2)
  let asOther := fun (e : List Char × List Char) =>
    ((none : Option (List Char)), afterSuffix e.2)
  let bare := fun (after : List Char) => ((none : Option (List Char)), afterSuffix after)
  match cs with
  | '"' :: rest => (cooked? .text rest).map asText
  | 'r' :: rest => (rawBody? QuoteStyle.text.plain rest).map asText
  | 'b' :: '"' :: rest => (cooked? .bytes rest).map asOther
  | 'b' :: 'r' :: rest => (rawBody? QuoteStyle.bytes.plain rest).map asOther
  | 'b' :: '\'' :: rest => (afterCharacter? .bytes rest).map bare
  | 'c' :: '"' :: rest => (cooked? .terminated rest).map asOther
  | 'c' :: 'r' :: rest => (rawBody? QuoteStyle.terminated.plain rest).map asOther
  | '\'' :: rest => (afterCharacter? .text rest).map bare
  | _ => none

end Embedded
end TrackedExpr
