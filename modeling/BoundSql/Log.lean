import BoundSql.Settings

/-!
# Log events

* `Event`              a level and named fields;
* `Logger`             the level of statement events, and how much of a statement they show;
* `Text.takeBytes`     the longest beginning of a text that fits into a number of bytes;
* `Logger.clip`        a text cut to the size that the logger shows;
* `Logger.statement`   the event of one statement execution.
-/

namespace BoundSql

inductive Level where
  | error
  | warn
  | info
  | debug
  | trace
  deriving DecidableEq, Repr

inductive FieldValue where
  | text (s : String)
  | number (n : Nat)
  | flag (b : Bool)
  deriving DecidableEq, Repr

structure Event where
  level : Level
  fields : List (String × FieldValue)
  deriving DecidableEq, Repr

structure Logger where
  level : Level := .debug
  /-- how many bytes of a statement are shown, all if there is no limit -/
  limit : Option Nat := some 200

/-- the longest beginning of whole characters with at most `budget` bytes -/
def Text.takeBytes (budget : Nat) : Text → Text
  | [] => []
  | c :: t => if c.utf8Size ≤ budget then c :: takeBytes (budget - c.utf8Size) t else []

theorem Text.takeBytes_isPrefix (budget : Nat) (t : Text) : takeBytes budget t <+: t := by
  induction t generalizing budget with
  | nil => exact List.nil_prefix
  | cons c t ih =>
    rw [takeBytes]
    split
    · exact List.cons_prefix_cons.mpr ⟨rfl, ih _⟩
    · exact List.nil_prefix

theorem Text.size_takeBytes_le (budget : Nat) (t : Text) : (takeBytes budget t).size ≤ budget := by
  induction t generalizing budget with
  | nil => simp [takeBytes, size]
  | cons c t ih =>
    rw [takeBytes]
    split
    · rw [size_cons]
      have := ih (budget - c.utf8Size)
      omega
    · simp [size]

namespace Logger

/-- the text, cut at a whole character and marked if it does not fit -/
def clip (l : Logger) (t : Text) : Text :=
  match l.limit with
  | none => t
  | some budget => if t.size ≤ budget then t else t.takeBytes budget ++ "...".toList

def statement (l : Logger) (ctx : Context) (sql : Text) (arguments : Nat) : Event where
  level := l.level
  fields := [("tag", .text ctx.tagText), ("arg_count", .number arguments),
    ("sql", .text (String.ofList (l.clip sql)))]

end Logger

end BoundSql
