import DirectConv.Text.Extending
import DirectConv.Text.Printable

/-!
# Quoted text

A quoted text stands between double quotes on one line. Quotes and backslashes inside it follow a
backslash, common controls have short names, and every other character that has no shape of its
own is written by its code point.

## Main definitions

- `DirectConv.Text.escape`: the written form of one character
- `DirectConv.Text.quote`: the written form of a text
-/

namespace DirectConv.Text

/-- The hexadecimal numeral of `n`, in lower case and without leading zeros. -/
def hexadecimal (n : Nat) : String := String.ofList (Nat.toDigits 16 n)

/-- The written form of one character between quotes. -/
def escape (c : Char) : String :=
  if c = '\x00' then "\\0"
  else if c = '\t' then "\\t"
  else if c = '\n' then "\\n"
  else if c = '\r' then "\\r"
  else if c = '\\' then "\\\\"
  else if c = '"' then "\\\""
  else if extending.contains c || !printable.contains c then
    "\\u\x7b" ++ hexadecimal c.toNat ++ "\x7d"
  else String.singleton c

/-- The written form of a text, quotes included. -/
def quote (text : String) : String :=
  "\"" ++ String.join (text.toList.map escape) ++ "\""

end DirectConv.Text
