/-!
# Escapes in stream texts

`unescape` resolves the escapes with which a debugger writes the output of its target: a backslash
before `n`, `t`, `r`, a backslash or a quote, and a backslash before one to three octal digits,
which stand for the character of that code.  Any other backslash stands for itself.
-/

namespace DebugBridge.Text

def isOctal (c : Char) : Bool :=
  '0' ≤ c && c ≤ '7'

/-- The character whose code the octal digits spell. -/
def ofOctal (digits : List Char) : Char :=
  Char.ofNat (digits.foldl (fun code digit => 8 * code + (digit.toNat - '0'.toNat)) 0)

/-- What a letter behind a backslash stands for. -/
def letterEscape? : Char → Option Char
  | 'n' => some '\n'
  | 't' => some '\t'
  | 'r' => some '\r'
  | '\\' => some '\\'
  | '"' => some '"'
  | _ => none

/-- The text with its escapes resolved. -/
def unescape : List Char → List Char
  | [] => []
  | ['\\'] => ['\\']
  | '\\' :: a :: rest =>
      match letterEscape? a with
      | some c => c :: unescape rest
      | none =>
          if isOctal a then
            match rest with
            | [] => [ofOctal [a]]
            | b :: rest' =>
                if isOctal b then
                  match rest' with
                  | [] => [ofOctal [a, b]]
                  | c :: rest'' =>
                      if isOctal c then ofOctal [a, b, c] :: unescape rest''
                      else ofOctal [a, b] :: unescape (c :: rest'')
                else ofOctal [a] :: unescape (b :: rest')
          else '\\' :: unescape (a :: rest)
  | c :: rest => c :: unescape rest

/-- The text without one layer of quotes around it, if it has one. -/
def unquote : List Char → List Char
  | '"' :: rest => if rest.getLast? = some '"' then rest.dropLast else '"' :: rest
  | cs => cs

end DebugBridge.Text
