/-!
Stretches of time as counts of nanoseconds. An instant is the count from the start of the steady
clock.
-/
namespace RecordingDelivery.Duration

def ofMillis (n : Nat) : Nat := n * 1000000

def ofSeconds (n : Nat) : Nat := n * 1000000000

/-- Whole seconds, rounded down. -/
def seconds (d : Nat) : Nat := d / 1000000000

def millis (d : Nat) : Nat := d / 1000000

@[simp] theorem seconds_ofSeconds (n : Nat) : seconds (ofSeconds n) = n := by
  simp [seconds, ofSeconds]

@[simp] theorem millis_ofMillis (n : Nat) : millis (ofMillis n) = n := by
  simp [millis, ofMillis]

/-- The longest stretch that 64 bits of seconds and their nanoseconds hold. -/
def longest : Nat := ofSeconds (0xFFFFFFFFFFFFFFFF) + 999999999

end RecordingDelivery.Duration
