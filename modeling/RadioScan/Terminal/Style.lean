/-!
# Styled text

Text is coloured by escape sequences around it, or left alone where colours are off.
-/

namespace RadioScan.Terminal

/-- Colours and weights that reports use. -/
inductive Style
  | heading
  | bold
  | dimmed
  | cyan
  | yellow
  | green
  | red
  | boldGreen
  | boldRed
  | boldYellow
  | boldCyan

/-- The parameters of a style's escape sequence. -/
def Style.parameters : Style → String
  | heading => "1;94"
  | bold => "1"
  | dimmed => "2"
  | cyan => "36"
  | yellow => "33"
  | green => "32"
  | red => "31"
  | boldGreen => "1;32"
  | boldRed => "1;31"
  | boldYellow => "1;33"
  | boldCyan => "1;36"

/-- Text in a style; empty text is wrapped as well. -/
def paint (color : Bool) (style : Style) (s : String) : String :=
  if color then "\x1b[" ++ style.parameters ++ "m" ++ s ++ "\x1b[0m" else s

def spaces (n : Nat) : String := String.ofList (List.replicate n ' ')

/-- Blanks in front up to a width. -/
def padLeft (width : Nat) (s : String) : String := spaces (width - s.length) ++ s

/-- Blanks behind up to a width. -/
def padRight (width : Nat) (s : String) : String := s ++ spaces (width - s.length)

end RadioScan.Terminal
