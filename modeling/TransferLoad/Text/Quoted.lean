import TransferLoad.Text.Printable

/-!
# Quoted text

How a character or a text is shown inside a message: between quotes, with the quote, the backslash and
everything that would not be visible escaped.
-/

namespace TransferLoad.Text.Quoted

def numbered (c : Char) : List Char :=
  "\\u\x7b".toList ++ Nat.toDigits 16 c.toNat ++ "\x7d".toList

def escape (quote : Char) (c : Char) : List Char :=
  if c = Char.ofNat 0 then ['\\', '0']
  else if c = '\t' then ['\\', 't']
  else if c = '\r' then ['\\', 'r']
  else if c = '\n' then ['\\', 'n']
  else if c = '\\' ∨ c = quote then ['\\', c]
  else if isShown c then [c]
  else numbered c

def singleQuote : Char := Char.ofNat 39

def doubleQuote : Char := Char.ofNat 34

def char (c : Char) : String :=
  String.ofList (singleQuote :: escape singleQuote c ++ [singleQuote])

def text (s : String) : String :=
  String.ofList (doubleQuote :: s.toList.flatMap (escape doubleQuote) ++ [doubleQuote])

end TransferLoad.Text.Quoted
