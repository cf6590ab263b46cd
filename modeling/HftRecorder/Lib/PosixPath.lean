import HftRecorder.Lib.ByteLayout

/-!
# POSIX paths

`std::filesystem::path` on a POSIX system: a path is the text of its names with `/` between them.
-/

namespace PosixPath

open ByteLayout (Bytes)

/-- The byte `/`. -/
def separator : UInt8 := 47

def filename (path : Bytes) : Bytes := (path.reverse.takeWhile (· != separator)).reverse

end PosixPath
