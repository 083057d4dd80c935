import KkProxy.Ssl.Stream

set_option autoImplicit false

namespace KkProxy.Uring

open Ssl (ErrorCode makeSysError)

abbrev Result (α : Type) := Except ErrorCode α

def etime : Int32 := 62

-- An `int` where a `result<int>` is expected.
def ofInt (n : Int32) : Result Int32 := .ok n

def connectResume (res : Int32) : Result Int32 :=
  if 0 ≤ res then .ok res else .error (makeSysError res.toInt)

-- The two branches of the source's `-res >= 10086` test are the same.
def readResume (res : Int32) : Result Int32 :=
  if 0 ≤ res then .ok res
  else if 10086 ≤ -res then .error (makeSysError (-res).toInt)
  else .error (makeSysError (-res).toInt)

def writeResume (res : Int32) : Int32 := res

def sendResume (res : Int32) : Int32 := res

def recvResume (res : Int32) : Int32 := res

def acceptResume (res : Int32) : Int32 := res

def timeoutResume (res : Int32) : Result Unit :=
  if res = -etime then .ok () else .error (makeSysError (-res).toInt)

-- `-res` as the source computes it; for the least `int` it is undefined in C++.
theorem neg_toInt_eq_iff (res : Int32) : (-res).toInt = -res.toInt ↔ res ≠ Int32.minValue := by
  have least := res.le_toInt
  have most := res.toInt_lt
  rw [Int32.toInt_neg, Int.bmod_def, ne_eq, ← Int32.toInt_inj, Int32.toInt_minValue]
  constructor
  · intro same
    split at same <;> omega
  · intro other
    split <;> omega

end KkProxy.Uring
