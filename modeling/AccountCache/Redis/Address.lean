import AccountCache.Cache.Error
import AccountCache.Text.PercentCode
import AccountCache.Text.Quoted
import AccountCache.Url

namespace AccountCache

namespace Redis

inductive AddressError where
  | notAUrl
  | missingHost
  | missingPath
  | noTls
  | invalidDatabase
  | invalidUsername
  | invalidPassword
  | invalidProtocol (version : String)
deriving DecidableEq

def AddressError.message : AddressError → String
  | notAUrl => "Redis URL did not parse- InvalidClientConfig"
  | missingHost => "Missing hostname- InvalidClientConfig"
  | missingPath => "Missing path- InvalidClientConfig"
  | noTls => "can't connect with TLS, the feature is not enabled- InvalidClientConfig"
  | invalidDatabase => "Invalid database number- InvalidClientConfig"
  | invalidUsername => "Username is not valid UTF-8 string- InvalidClientConfig"
  | invalidPassword => "Password is not valid UTF-8 string- InvalidClientConfig"
  | invalidProtocol version => "Invalid protocol version - InvalidClientConfig: " ++ version

/-- The last value that a query gives for a name, as the database number of
a `unix:` address is looked up. -/
def queryValue? (u : Url) (name : String) : Option String :=
  ((queryPairs (u.query.getD "")).reverse.find? (·.1 == name)).map (·.2)

def protocolError? (u : Url) : Option AddressError :=
  match queryValue? u "protocol" with
  | none => none
  | some version =>
    if ["2", "resp2", "3", "resp3"].contains version then none else some (.invalidProtocol version)

/-- The path of a URL without the slashes around it. -/
def databaseText (u : Url) : String :=
  let path := ("/".intercalate (u.segments.getD [])).toList
  String.ofList ((path.dropWhile (· == '/')).reverse.dropWhile (· == '/')).reverse

def networkError? (u : Url) : Option AddressError :=
  if u.host.isNone then some .missingHost
  else if u.scheme == "rediss" then some .noTls
  else if databaseText u != "" && (int64? (databaseText u)).isNone then some .invalidDatabase
  else if (percentText? u.username).isNone then some .invalidUsername
  else if (u.password.bind percentText?).isNone && u.password.isSome then some .invalidPassword
  else protocolError? u

def localError? (u : Url) : Option AddressError :=
  if u.segments.isNone || (u.host.isSome && u.host != some "localhost") then some .missingPath
  else if (queryValue? u "db").any fun db => (int64? db).isNone then some .invalidDatabase
  else protocolError? u

/-- What is wrong with an address, if anything is. It is
`redis://host:port/db`, or `unix:///path?db=0` for a server on the
same machine. -/
def addressError? (s : String) : Option AddressError :=
  match Url.ofText? s with
  | none => some .notAUrl
  | some u =>
    if u.scheme == "redis" || u.scheme == "rediss" then networkError? u
    else if u.scheme == "unix" || u.scheme == "redis+unix" then localError? u
    else some .notAUrl

/-- Refuses an address that no connection could use. -/
def checkAddress (s : String) : Except Cache.Error Unit :=
  match addressError? s with
  | none => .ok ()
  | some e => .error (.invalidConfig ("invalid redis URL " ++ quoted s ++ ": " ++ e.message))

end Redis

end AccountCache
