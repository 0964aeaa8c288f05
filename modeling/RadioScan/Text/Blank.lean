/-!
# Blanks

Which characters are white space in Unicode, text without such characters at its ends, and the
lines that line feeds cut a text into.
-/

namespace RadioScan.Text

/-- White space by the Unicode property of that name. -/
def isBlank (c : Char) : Bool :=
  let n := c.toNat
  (0x9 ≤ n && n ≤ 0xd) || n == 0x20 || n == 0x85 || n == 0xa0 || n == 0x1680 ||
    (0x2000 ≤ n && n ≤ 0x200a) || n == 0x2028 || n == 0x2029 || n == 0x202f || n == 0x205f ||
    n == 0x3000

/-- A text without the blanks at its ends. -/
def trim (s : String) : String :=
  String.ofList (((s.toList.dropWhile isBlank).reverse.dropWhile isBlank).reverse)

/-- Lines, with the line feeds that end them, after one more character in front. -/
def consLine (c : Char) : List (List Char) → List (List Char)
  | [] => [[c]]
  | l :: ls => if c = '\n' then [c] :: l :: ls else (c :: l) :: ls

/-- A line without the line feed at its end, and without a carriage return in front of that. -/
def withoutEnd (l : List Char) : List Char :=
  match l.reverse with
  | '\n' :: '\r' :: cs => cs.reverse
  | '\n' :: cs => cs.reverse
  | _ => l

/-- The lines of a text; the last one needs no line feed behind it. -/
def lines (s : String) : List String :=
  (s.toList.foldr consLine []).map fun l => String.ofList (withoutEnd l)

end RadioScan.Text
