import LineShell.Bindings
import LineShell.Text.Blank

/-!
# The environment

Texts under names, which settings are read from and which the session keeps up to
date.
-/

namespace LineShell

open Text

/-- The environment. -/
abbrev Environment := Bindings String String

namespace Environment

def pwd : String := "PWD"

def oldPwd : String := "OLDPWD"

def lastReturnCode : String := "LAST_RETURN_CODE"

/-- The text under a name, or another one if there is none. -/
def getOr (env : Environment) (name other : String) : String :=
  (env.find? name).getD other

/-- The text under a name as a choice: absent or blank leaves the given one, a few
words mean no, and everything else means yes. -/
def getBool (env : Environment) (name : String) (other : Bool) : Bool :=
  match (env.find? name).map foldName with
  | none => other
  | some text =>
    if text.isEmpty then other
    else !(text = "0" || text = "false" || text = "no" || text = "off")

end Environment
end LineShell
