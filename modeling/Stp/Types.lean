/-!
# Handles

A process and a session are each named by one 32-bit number, and `0` names neither.
-/

namespace Stp

/-- `process_t`. -/
abbrev ProcessT := UInt32

/-- `session_t`. -/
abbrev SessionT := UInt32

end Stp
