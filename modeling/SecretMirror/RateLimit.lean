import SecretMirror.Fault
import SecretMirror.Time

/-!
# Spacing of API calls

At most `rate` API calls a second are made, evenly spaced: a call that comes less than `1 / rate`
seconds after the previous one waits for the rest of that time.  One reading of the clock before the
wait decides its length, and a second one after it is recorded as the start of the call.
-/

namespace SecretMirror.RateLimit

variable {τ : Type}

/-- The least time between two calls (`min_interval`).  It is computed at every call, so a rate of
zero is a fault at every call and not at the start. -/
def spacing [Time τ] (rate : τ) : Except (Fault τ) τ :=
  if Time.isZero rate then .error .rateIsZero else .ok (1 / rate)

/-- How long a call has to wait, if at all: it comes at `now`, and the last one came at `last`.  A
call that comes exactly after the spacing does not wait. -/
def wait? [Time τ] (spacing now last : τ) : Option τ :=
  if now - last < spacing then some (spacing - (now - last)) else none

end SecretMirror.RateLimit
