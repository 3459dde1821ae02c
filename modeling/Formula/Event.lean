import Formula.ParseError

/-!
# Events

What compilation and caches report to a log while they work.
-/

namespace Formula

inductive Level where
  | debug
  | trace
  deriving DecidableEq

def Level.text : Level → String
  | .debug => "DEBUG"
  | .trace => "TRACE"

inductive Event where
  | cacheHit (key : String)
  | cacheMiss (key : String)
  | cacheEviction (key : String)
  | compiled (source : String) (type : ValueType) (names instructions : Nat)
  | notCompiled (source : String) (error : ParseError)
  deriving DecidableEq

namespace Event

def level : Event → Level
  | .cacheHit _ => .trace
  | _ => .debug

def message : Event → String
  | .cacheHit _ => "缓存命中"
  | .cacheMiss _ => "缓存未命中，开始计算"
  | .cacheEviction _ => "缓存条目被淘汰"
  | .compiled .. => "表达式编译完成"
  | .notCompiled .. => "表达式编译失败"

/-- The named values that go with the message. -/
def fields : Event → List (String × String)
  | .cacheHit key | .cacheMiss key | .cacheEviction key => [("key", key)]
  | .compiled source type names instructions =>
    [("source", source), ("result", type.text), ("variables", toString names),
      ("instructions", toString instructions)]
  | .notCompiled source error => [("source", source), ("error", error.message)]

end Event

end Formula
