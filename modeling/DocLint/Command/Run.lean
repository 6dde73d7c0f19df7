import DocLint.Command.Check
import DocLint.Command.Init

/-!
# Carrying out a command
-/

set_option autoImplicit false

namespace DocLint.World

variable {m : Type → Type} [Monad m]

def carryOut (w : World m) (color : Bool) : Command → m (Except LineOverflow Outcome)
  | .check args => w.check color args
  | .init args => return .ok (← w.init args)

end DocLint.World
