/-!
# Access levels

What a group of people may do in a namespace.  Everyone may pull; a level tells whether pushing is
denied and whether deleting is allowed, and each of the four combinations has its token.
-/

namespace RegistryFront.Access

inductive Level where
  | read
  | readDelete
  | readWrite
  | readWriteDelete
  deriving DecidableEq, Repr

namespace Level

def all : List Level := [.read, .readDelete, .readWrite, .readWriteDelete]

def name : Level → String
  | .read => "read"
  | .readDelete => "read_delete"
  | .readWrite => "read_write"
  | .readWriteDelete => "read_write_delete"

def token : Level → String
  | .read => "r"
  | .readDelete => "rd"
  | .readWrite => "rw"
  | .readWriteDelete => "rwd"

def ofToken? (text : String) : Option Level :=
  all.find? fun level => level.token == text

def pullOnly : Level → Bool
  | .read | .readDelete => true
  | .readWrite | .readWriteDelete => false

def deleteAllowed : Level → Bool
  | .readDelete | .readWriteDelete => true
  | .read | .readWrite => false

def ofFlags : (pullOnly deleteAllowed : Bool) → Level
  | true, false => .read
  | true, true => .readDelete
  | false, false => .readWrite
  | false, true => .readWriteDelete

@[simp] theorem ofFlags_flags (level : Level) :
    ofFlags level.pullOnly level.deleteAllowed = level := by
  cases level <;> rfl

@[simp] theorem ofToken?_token (level : Level) : ofToken? level.token = some level := by
  cases level <;> decide

end Level

end RegistryFront.Access
