/-!
# Quality of service and retain handling

* `QoS` is how often a message is delivered.
* `RetainHandling` is whether a new subscription gets the retained messages.
-/

namespace Mqtt

/-- How often a message is delivered. -/
inductive QoS where
  | atMostOnce
  | atLeastOnce
  | exactlyOnce
  deriving DecidableEq

namespace QoS

/-- All levels, by ascending code. -/
def all : List QoS := [.atMostOnce, .atLeastOnce, .exactlyOnce]

/-- The two bits that stand for a level. -/
def code : QoS → Nat
  | .atMostOnce => 0
  | .atLeastOnce => 1
  | .exactlyOnce => 2

/-- The name of a level. -/
def name : QoS → String
  | .atMostOnce => "AT_MOST_ONCE"
  | .atLeastOnce => "AT_LEAST_ONCE"
  | .exactlyOnce => "EXACTLY_ONCE"

/-- The level with a number. -/
def ofCode? (n : Int) : Option QoS := all.find? fun q => (q.code : Int) == n

/-- Each level is found by its number. -/
@[simp] theorem ofCode?_code (q : QoS) : ofCode? q.code = some q := by
  cases q <;> rfl

/-- A level that a number finds has that number. -/
theorem code_of_ofCode? {n : Int} {q : QoS} (h : ofCode? n = some q) : (q.code : Int) = n := by
  simpa using List.find?_some h

/-- No level has both bits set. -/
theorem code_lt (q : QoS) : q.code < 3 := by
  cases q <;> decide

end QoS

/-- Whether a new subscription gets the retained messages. -/
inductive RetainHandling where
  | sendRetained
  | sendRetainedIfNotSubscribed
  | noRetained
  deriving DecidableEq

namespace RetainHandling

/-- All ways, by ascending code. -/
def all : List RetainHandling := [.sendRetained, .sendRetainedIfNotSubscribed, .noRetained]

/-- The two bits that stand for a way. -/
def code : RetainHandling → Nat
  | .sendRetained => 0
  | .sendRetainedIfNotSubscribed => 1
  | .noRetained => 2

/-- The name of a way. -/
def name : RetainHandling → String
  | .sendRetained => "SEND_RETAINED"
  | .sendRetainedIfNotSubscribed => "SEND_RETAINED_IF_NOT_SUBSCRIBED"
  | .noRetained => "NO_RETAINED"

/-- The way with a number. -/
def ofCode? (n : Int) : Option RetainHandling := all.find? fun r => (r.code : Int) == n

/-- Each way is found by its number. -/
@[simp] theorem ofCode?_code (r : RetainHandling) : ofCode? r.code = some r := by
  cases r <;> rfl

/-- A way that a number finds has that number. -/
theorem code_of_ofCode? {n : Int} {r : RetainHandling} (h : ofCode? n = some r) :
    (r.code : Int) = n := by
  simpa using List.find?_some h

/-- No way has both bits set. -/
theorem code_lt (r : RetainHandling) : r.code < 3 := by
  cases r <;> decide

end RetainHandling

end Mqtt
