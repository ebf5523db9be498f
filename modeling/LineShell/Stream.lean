/-!
# The two output streams
-/

namespace LineShell

/-- One of the streams that a unit writes to. -/
inductive Stream where
  | stdout
  | stderr
  deriving DecidableEq, Repr

namespace Stream

def name : Stream → String
  | stdout => "stdout"
  | stderr => "stderr"

end Stream
end LineShell
