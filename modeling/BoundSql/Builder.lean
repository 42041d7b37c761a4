import BoundSql.Connection
import BoundSql.Statement
import BoundSql.Statement.Select.Edit

/-!
# Building statements step by step

* `Draft`              kinds of statements with their edits;
* `Builder`            a draft together with its last build, if that is to be kept;
* `Builder.edit`, `Builder.keep`   a further edit, or keeping builds from now on;
* `Builder.toSql`      the finished text and its arguments;
* `Builder.exec`, `Builder.prepare`   executing and preparing a statement once.
-/

namespace BoundSql

class Draft (σ : Type) where
  Edit : Type
  edit : σ → Edit → Except Fault σ
  statement : σ → Statement

instance : Draft Select := ⟨Select.Edit, fun s e => .ok (s.edit e), .select⟩
instance : Draft Insert := ⟨Insert.Edit, Insert.edit, .insert⟩
instance : Draft Update := ⟨Update.Edit, fun u e => .ok (u.edit e), .update⟩
instance : Draft Delete := ⟨Delete.Edit, fun d e => .ok (d.edit e), .delete⟩
instance : Draft Union := ⟨Union.Edit, fun u e => .ok (u.edit e), .union⟩
instance : Draft With := ⟨With.Edit, fun w e => .ok (w.edit e), .with⟩

structure Built where
  sql : Text
  args : Arguments

structure Cache where
  enabled : Bool
  built : Option Built

namespace Cache

def empty : Cache := ⟨false, none⟩

def get (c : Cache) : Option Built := if c.enabled then c.built else none

def isFilled (c : Cache) : Bool := c.get.isSome

/-- keeps a build if builds are kept and none is there -/
def put (c : Cache) (b : Built) : Cache :=
  if c.enabled then { c with built := some (c.built.getD b) } else c

def clear (c : Cache) : Cache := { c with built := none }

end Cache

/-! ## building -/

namespace Statement

/-- literals in the place of the arguments, if the statement asks for them -/
def finish (s : Statement) (sql : Text) (args : Arguments) : Except Error Built :=
  if s.interpolated then do return ⟨← render sql args, []⟩ else .ok ⟨sql, args⟩

def build (s : Statement) : List Call × Except Error Built :=
  match s.buildText with
  | .error e => ([], .error e)
  | .ok sql =>
    let (calls, args) := s.buildArgs none
    (calls, args.bind (s.finish sql))

end Statement

def builtEvent (b : Built) : Event where
  level := .trace
  fields := [("sql", .text (String.ofList b.sql)), ("arg_count", .number b.args.length),
    ("message", .text "statement built")]

structure Builder (σ : Type) where
  draft : σ
  cache : Cache

namespace Builder

variable {σ δ : Type} [Draft σ]

def ofDraft (draft : σ) : Builder σ := ⟨draft, .empty⟩

def statement (b : Builder σ) : Statement := Draft.statement b.draft

/-- a further edit, which forgets the build; after a failed edit nothing is touched any more -/
def edit (b : Builder σ) (e : Draft.Edit σ) : Except Fault (Builder σ) := do
  let draft ← Draft.edit b.draft e
  match b.statement.failed with
  | some _ => return ⟨draft, b.cache⟩
  | none => return ⟨draft, b.cache.clear⟩

/-- keeps builds from now on, unless an edit has failed -/
def keep (b : Builder σ) : Builder σ :=
  match b.statement.failed with
  | some _ => b
  | none => { b with cache := { b.cache.clear with enabled := true } }

/-- the finished text and its arguments, from the cache if they are there -/
def toSql (b : Builder σ) : List Entry × Except Error Built × Builder σ :=
  match b.cache.get with
  | some built => ([], .ok built, b)
  | none =>
    let (calls, result) := b.statement.build
    match result with
    | .error e => (calls.map .asked, .error e, b)
    | .ok built =>
      (calls.map .asked ++ [.logged (builtEvent built)], .ok built,
        { b with cache := b.cache.put built })

/-! ## executing -/

def scalarSql (b : Builder σ) : List Entry × Except Error Built × Builder σ :=
  let (entries, result, b) := b.toSql
  (entries, result.bind fun built => do return { built with args := ← built.args.flatten }, b)

def exec (b : Builder σ) (conn : Connection δ) (ctx : Context) (db : δ) :
    List Entry × Except Error ExecResult × Builder σ × δ :=
  match b.scalarSql with
  | (entries, .error e, b) => (entries, .error e, b, db)
  | (entries, .ok built, b) =>
    let event := ({} : Logger).statement ctx built.sql built.args.length
    let request := Request.direct built.sql built.args
    let (result, db) := conn.complete ctx request db
    (entries ++ [.logged event, .executed ctx request], result, b, db)

def prepare (b : Builder σ) (conn : Connection δ) (ctx : Context) (db : δ) :
    List Entry × Except Error Unit × δ :=
  match b.statement.buildText with
  | .error e => ([], .error e, db)
  | .ok sql =>
    let (result, db) := conn.prepare ctx sql db
    ([.logged (({} : Logger).statement ctx sql 0), .prepared ctx sql], result, db)

end Builder

end BoundSql
