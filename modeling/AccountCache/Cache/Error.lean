import AccountCache.Duration

namespace AccountCache

namespace Cache

/-- What can go wrong between a caller and the cache. Reads take a failing
backend for a miss, so they do not end with what it reports. -/
inductive Error where
  /-- There was no connection to the backend. -/
  | pool
  /-- The backend refused a command, or its reply made no sense. -/
  | backend
  /-- An entry is there, but its value could not be read. -/
  | notRetrievable (key : String)
  | notAnInteger (key : String)
  /-- A counter is at its greatest value. -/
  | overflow (key : String)
  /-- Neither a value nor the lock was to be had in time. -/
  | waitTooLong (key : String) (waited : Duration)
  | invalidConfig (reason : String)
deriving DecidableEq

namespace Error

def message : Error → String
  | pool => "cache pool error"
  | backend => "cache backend error"
  | notRetrievable key => "cache entry " ++ key ++ " exists but could not be retrieved"
  | notAnInteger key => "cache entry " ++ key ++ " does not hold an integer"
  | overflow key => "incrementing " ++ key ++ " would overflow"
  | waitTooLong key waited =>
    "waited " ++ waited.text ++ " for " ++ key ++ " without obtaining a value or the lock"
  | invalidConfig reason => "invalid cache configuration: " ++ reason

/-- Whether the caller waited in vain, so that it has neither a value nor
the right to compute one. -/
def isWaitTooLong : Error → Bool
  | waitTooLong .. => true
  | _ => false

/-- Whether the backend failed, so that a later attempt may succeed. -/
def isTransient : Error → Bool
  | pool | backend | notRetrievable _ => true
  | _ => false

end Error

end Cache

end AccountCache
