import AccountCache.Text.Integer
import AccountCache.Text.Utf8

namespace AccountCache

namespace Redis

inductive Reply where
  | status (text : String)
  | error (text : String)
  | integer (n : Int)
  | bulk (bytes : Bytes)
  | nil
  | array (items : List Reply)

namespace Reply

/-- A status line counts as a text, which is how a client reads
both of them. -/
def textBytes? : Reply → Option Bytes
  | status s => some (.ofText s)
  | bulk b => some b
  | _ => none

/-- Nil is false, a status is true only if it is OK, and a text has to be
`1` or `0`. -/
def bool? : Reply → Option Bool
  | integer n => some (n != 0)
  | status s => if s = "OK" then some true else none
  | bulk b => if b = .ofText "1" then some true else if b = .ofText "0" then some false else none
  | nil => some false
  | _ => none

/-- An integer, also as a text. -/
def int? : Reply → Option Int
  | integer n => some n
  | bulk b => b.text?.bind int64?
  | status s => int64? s
  | _ => none

def value? : Reply → Option (Option Bytes)
  | bulk b => some (some b)
  | nil => some none
  | _ => none

/-- Nothing is taken from the reply but that it is no error. -/
def unit? : Reply → Option Unit
  | error _ => none
  | _ => some ()

def isError : Reply → Bool
  | error _ => true
  | _ => false

/-- Whether a reply is the error that starts with a given word. -/
def isErrorOf (word : String) : Reply → Bool
  | error s => s.toList.take word.length == word.toList
  | _ => false

/-- What ends a transaction of writes well: nil, or replies without an error
among them. -/
def writes? : Reply → Option Unit
  | nil => some ()
  | array items => if items.any isError then none else some ()
  | _ => none

end Reply

end Redis

end AccountCache
