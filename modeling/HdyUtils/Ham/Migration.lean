import HdyUtils.Ham.Storage

/-! The migration of the storage to the Unix epoch (`internal_storage.rs`).  Timestamps that are less
than 10^12 count from the start of the year 2000; `init_tables` moves them, and their expiries, by the
distance of the epochs.  An expiry of 0, which means never, is moved like any other. -/

namespace HdyUtils.Ham

/-- The milliseconds from 1970-01-01 to 2000-01-01. -/
def epochOffset : Int := 946684800000

/-- `timestamp > 0 AND timestamp < 1000000000000`. -/
def sinceMillennium (timestamp : Int64) : Bool := 0 < timestamp && timestamp < 1000000000000

namespace ChatMessage

end ChatMessage

namespace FileBundleRecord

end FileBundleRecord

namespace Database

variable {db : Database} {s : InternalStorage}

end Database

/-! ### Expiries -/

/-- The shifted expiry is a 64-bit integer. -/
def Fits (timestamp expiry : Int64) : Prop :=
  sinceMillennium timestamp = true → expiry.toInt + epochOffset < 2 ^ 63

namespace Database

end Database

end HdyUtils.Ham
