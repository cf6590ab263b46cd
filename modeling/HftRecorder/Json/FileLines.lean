import HftRecorder.Json.Text

/-!
# The lines of a file

What successive calls of `std::getline` give: a line ends at a newline or at the end of the file, and
no line follows a newline at the end.
-/

namespace HftRecorder.Json

open ByteLayout (Bytes)

/-- The lines that `std::getline` reads from a file. -/
def getlines : Bytes → List Bytes
  | [] => []
  | b :: rest =>
    if b = 10 then [] :: getlines rest
    else
      match getlines rest with
      | [] => [[b]]
      | line :: lines => (b :: line) :: lines

/-- A carriage return at the end of a line is dropped. -/
def dropCarriageReturn (line : Bytes) : Bytes :=
  if line.getLast? = some 13 then line.dropLast else line

end HftRecorder.Json
