/-!
# Computations that may be left

What holds of the result of a computation, and of the reason why it is left without one.
-/

namespace NetSnmp

variable {ε α β : Type} {result : α → Prop} {result' : β → Prop} {left : ε → Prop}
  {computation : Except ε α}

/-- The result of a computation has a property, or the reason why it is left has one. -/
def Meets (result : α → Prop) (left : ε → Prop) : Except ε α → Prop
  | .ok value => result value
  | .error reason => left reason

theorem Meets.bind {next : α → Except ε β} (meets : Meets result left computation)
    (behind : ∀ value, result value → Meets result' left (next value)) :
    Meets result' left (computation >>= next) := by
  cases computation with
  | error reason => exact meets
  | ok value => exact behind value meets

theorem Meets.imp {result' : α → Prop} {left' : ε → Prop} (meets : Meets result left computation)
    (weaker : ∀ value, result value → result' value)
    (weakerLeft : ∀ reason, left reason → left' reason) :
    Meets result' left' computation := by
  cases computation with
  | error reason => exact weakerLeft reason meets
  | ok value => exact weaker value meets

end NetSnmp
