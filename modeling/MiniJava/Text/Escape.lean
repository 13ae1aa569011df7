import MiniJava.Text.Combining
import MiniJava.Text.Printable

/-!
# Escapes — characters and strings as messages show them

Five characters have a letter of their own after a backslash, quotes are escaped where they would
end the text, and what is combining or not printable is written as `\u` with its code point in
braces. `escapeChar` is the form inside single quotes, `quoted` a whole string in double quotes.
-/

namespace MiniJava.Text

/-- A code point as `\u`, with lower-case hexadecimal digits in braces. -/
def codePointEscape (c : Char) : String :=
  "\\u\x7b" ++ String.ofList (Nat.toDigits 16 c.toNat) ++ "\x7d"

/-- One character, with a backslash before the quotes that `isQuote` names. -/
def escapeWith (isQuote : Char → Bool) (c : Char) : String :=
  match c with
  | '\x00' => "\\0"
  | '\t' => "\\t"
  | '\r' => "\\r"
  | '\n' => "\\n"
  | '\\' => "\\\\"
  | _ =>
    if isQuote c then "\\" ++ String.singleton c
    else if isPrintable c && !isCombining c then String.singleton c
    else codePointEscape c

/-- A character that stands alone: both quotes are escaped. -/
def escapeChar (c : Char) : String := escapeWith (fun q => q == '\'' || q == '"') c

/-- A string in double quotes: only they are escaped. -/
def quoted (s : String) : String :=
  "\"" ++ String.join (s.toList.map (escapeWith (· == '"'))) ++ "\""

/-- The two quotes are the characters whose escape depends on where they stand. -/
theorem escapeWith_of_not_quote {p q : Char → Bool} {c : Char} (h : p c = q c) :
    escapeWith p c = escapeWith q c := by
  unfold escapeWith
  split <;> simp [h]

end MiniJava.Text
