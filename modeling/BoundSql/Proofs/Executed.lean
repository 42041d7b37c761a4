import BoundSql.Proofs.Concurrent
import BoundSql.Proofs.Flight.Turns
import BoundSql.Proofs.Interpolated
import BoundSql.Proofs.Uses
import BoundSql.Proofs.Walk.Statement

/-!
# What a single execution hands over

The driver gets the finished text and the values of its arguments, one by one.

* `Argument.scalars_inv`, `Arguments.flatten_inv`   what values look like;
* `Builder.executed_inv`    the request of an execution, and the build that it comes from;
* `Statement.build_inv`     what is built, with literals or without;
* `Builder.exec_sent`       the values that the driver gets, and how many.

Nothing compares the values with the placeholders: they are as many only where the text and the
arguments have been built in step.
-/

namespace BoundSql

open Placeholder

/-! ## values -/

theorem Argument.resolve_inv {look : String} {resolved : Except Error Argument} {a : Argument}
    (h : resolve look resolved = .ok a) :
    resolved = .ok a ∧ a.isList = false ∧ a.isValue = false := by
  cases resolved with
  | error e => cases h
  | ok a' =>
    have h : (if a'.isList || a'.isValue then .error (.unsupported (.driverValue look))
        else .ok a' : Except Error Argument) = .ok a := h
    split at h
    · cases h
    · rename_i hscalar
      cases h
      rw [Bool.or_eq_true, not_or, Bool.not_eq_true, Bool.not_eq_true] at hscalar
      exact ⟨rfl, hscalar⟩

/-- the values of an argument are no lists and no driver values; a marker among them is what a driver
value stands for -/
theorem Argument.scalars_inv {a : Argument} {values : Arguments} (h : a.scalars = .ok values) :
    ∀ v ∈ values, v.isList = false ∧ v.isValue = false ∧
      (v = .pending → ∃ identity look, a = .value identity look (.ok .pending)) := by
  intro v hv
  cases a with
  | bools | ints | floats | strings | bytesList | times =>
    cases h
    obtain ⟨_, _, rfl⟩ := List.mem_map.mp hv
    exact ⟨rfl, rfl, Argument.noConfusion⟩
  | null | bool | int | float | string | bytes | time =>
    cases h
    rw [List.mem_singleton.mp hv]
    exact ⟨rfl, rfl, Argument.noConfusion⟩
  | pending => cases h
  | value identity look resolved =>
    have h : (resolve look resolved).map ([·]) = .ok values := h
    cases hr : resolve look resolved with
    | error e =>
      rw [hr] at h
      cases h
    | ok scalar =>
      rw [hr] at h
      cases h
      obtain ⟨rfl, hlist, hvalue⟩ := resolve_inv hr
      rw [List.mem_singleton.mp hv]
      exact ⟨hlist, hvalue, fun hpending => ⟨identity, look, by rw [hpending]⟩⟩

theorem Arguments.flatten_inv {args values : Arguments} (h : args.flatten = .ok values) :
    ∀ v ∈ values, v.isList = false ∧ v.isValue = false ∧
      (v = .pending → ∃ identity look, .value identity look (.ok .pending) ∈ args) := by
  induction args generalizing values with
  | nil =>
    cases h
    exact fun v hv => absurd hv List.not_mem_nil
  | cons a args ih =>
    obtain ⟨first, hfirst, h⟩ := bind_ok h
    obtain ⟨rest, hrest, h⟩ := bind_ok h
    cases h
    intro v hv
    rcases List.mem_append.mp hv with hv | hv
    · obtain ⟨hlist, hvalue, hpending⟩ := Argument.scalars_inv hfirst v hv
      refine ⟨hlist, hvalue, fun hv => ?_⟩
      obtain ⟨identity, look, rfl⟩ := hpending hv
      exact ⟨identity, look, List.mem_cons_self ..⟩
    · obtain ⟨hlist, hvalue, hpending⟩ := ih hrest v hv
      refine ⟨hlist, hvalue, fun hv => ?_⟩
      obtain ⟨identity, look, hmem⟩ := hpending hv
      exact ⟨identity, look, List.mem_cons_of_mem _ hmem⟩

/-! ## builds -/

/-- literals leave no placeholder in the text -/
theorem count_render {sql out : Text} {args : Arguments} (h : render sql args = .ok out) :
    count out = 0 := by
  obtain ⟨groups, hwritten, rfl⟩ := written_of_render h
  exact (reads_weave .plain sql groups.flatten hwritten.lengths.2 hwritten.inert).count

/-- a build is the text with its arguments, or a text with literals and no arguments -/
theorem Statement.build_inv {s : Statement} {built : Built} (h : s.build.2 = .ok built) :
    ∃ sql args, s.buildText = .ok sql ∧ (s.buildArgs none).2 = .ok args ∧
      (s.interpolated = false → built = ⟨sql, args⟩) ∧
      (s.interpolated = true → ∃ out, render sql args = .ok out ∧ built = ⟨out, []⟩) := by
  unfold build at h
  cases htext : s.buildText with
  | error e =>
    rw [htext] at h
    cases h
  | ok sql =>
    simp only [htext] at h
    obtain ⟨args, hargs, hbuilt⟩ := bind_ok (show (s.buildArgs none).2 >>= s.finish sql = _ from h)
    refine ⟨sql, args, rfl, hargs, fun hi => ?_, fun hi => ?_⟩
    · unfold finish at hbuilt
      rw [hi] at hbuilt
      cases hbuilt
      rfl
    · unfold finish at hbuilt
      rw [hi] at hbuilt
      obtain ⟨out, hout, hbuilt⟩ := bind_ok hbuilt
      cases hbuilt
      exact ⟨out, hout, rfl⟩

namespace Builder

variable {σ δ : Type} [Draft σ]

theorem not_executed_toSql (b : Builder σ) (ctx : Context) (r : Request) :
    .executed ctx r ∉ b.toSql.1 := by
  intro h
  unfold toSql at h
  split at h
  · cases h
  · dsimp only at h
    split at h
    · obtain ⟨_, _, hcall⟩ := List.mem_map.mp h
      cases hcall
    · rcases List.mem_append.mp h with h | h
      · obtain ⟨_, _, hcall⟩ := List.mem_map.mp h
        cases hcall
      · cases List.mem_singleton.mp h

/-- an execution requests the finished text with the values of its arguments -/
theorem executed_inv {b : Builder σ} {conn : Connection δ} {ctx ctx' : Context} {db : δ} {r : Request}
    (h : .executed ctx' r ∈ (b.exec conn ctx db).1) :
    ∃ built values, b.toSql.2.1 = .ok built ∧ built.args.flatten = .ok values ∧ ctx' = ctx ∧
      r = .direct built.sql values := by
  have hentries : b.scalarSql.1 = b.toSql.1 := rfl
  have hresult : b.scalarSql.2.1 = b.toSql.2.1.bind fun built => do
      return { built with args := ← built.args.flatten } := rfl
  unfold exec at h
  split at h
  · rename_i entries e _ hscalar
    rw [hscalar] at hentries
    exact absurd (hentries ▸ h) (not_executed_toSql b ctx' r)
  · rename_i entries sent _ hscalar
    rw [hscalar] at hentries hresult
    obtain ⟨built, hbuilt, hsent⟩ := bind_ok hresult.symm
    obtain ⟨values, hvalues, hsent⟩ := bind_ok hsent
    cases hsent
    rcases List.mem_append.mp h with h | h
    · exact absurd (hentries ▸ h) (not_executed_toSql b ctx' r)
    · simp only [List.mem_cons, List.not_mem_nil, or_false, reduceCtorEq, false_or,
        Entry.executed.injEq] at h
      exact ⟨built, values, hbuilt, hvalues, h.1, h.2⟩

end Builder

/-! ## what the driver gets -/

/-- where every row of an INSERT has its values and the caller's texts leave no quote open, the
arguments have a value for each placeholder -/
theorem Statement.slotCount_of_build {s : Statement} (hm : s.Made) (hc : s.Closed) (hs : s.Supplied)
    {sql : Text} {args : Arguments} (htext : s.buildText = .ok sql)
    (hargs : (s.buildArgs none).2 = .ok args) : args.slotCount = count sql := by
  obtain ⟨_, hv, ht⟩ := bind_ok htext
  obtain ⟨w, new, _, hp⟩ := projects hm hc hs ht
  cases hargs.symm.trans (buildArgs_of_yields hv hp.yields)
  rw [← hp.text_eq, ← Arguments.length_members, hp.members_eq]
  exact (Walk.countFrom_text hp.whole.sound).symm

/-- Whatever a caller has done with a builder, an execution hands the finished text to the driver with
scalar values; a marker is among them only where a driver value stands for one.  A text with literals
has neither placeholders nor values.  The values are otherwise as many as the placeholders if the
caller's texts leave no quote open and every row of an INSERT has its values, one scalar for each
column. -/
theorem Builder.exec_sent {σ δ : Type} [Draft σ] {d : σ} {us : List (Use σ)} {b : Builder σ}
    (hus : (ofDraft d).uses us = .ok b) {conn : Connection δ} {ctx ctx' : Context} {db : δ}
    {r : Request} (h : .executed ctx' r ∈ (b.exec conn ctx db).1) :
    ∃ built values, b.statement.build.2 = .ok built ∧ built.args.flatten = .ok values ∧
      ctx' = ctx ∧ r = .direct built.sql values ∧
      (∀ v ∈ values, v.isList = false ∧ v.isValue = false) ∧
      (.pending ∈ values → ∃ identity look, .value identity look (.ok .pending) ∈ built.args) ∧
      (b.statement.interpolated = true → values = [] ∧ count built.sql = 0) ∧
      (b.statement.Made → b.statement.Closed → b.statement.Supplied →
        values.length = count built.sql) := by
  obtain ⟨built, values, htoSql, hvalues, hctx, hr⟩ := executed_inv h
  have hbuilt : b.statement.build.2 = .ok built := ((sound_ofDraft d).uses hus).toSql_result ▸ htoSql
  have hinv := Arguments.flatten_inv hvalues
  obtain ⟨sql, args, htext, hargs, hplain, hliterals⟩ := Statement.build_inv hbuilt
  have hwritten : b.statement.interpolated = true → values = [] ∧ count built.sql = 0 := by
    intro hi
    obtain ⟨out, hout, rfl⟩ := hliterals hi
    cases hvalues
    exact ⟨rfl, count_render hout⟩
  refine ⟨built, values, hbuilt, hvalues, hctx, hr, fun v hv => ⟨(hinv v hv).1, (hinv v hv).2.1⟩,
    fun hv => (hinv _ hv).2.2 rfl, hwritten, fun hm hc hs => ?_⟩
  cases hi : b.statement.interpolated with
  | true =>
    obtain ⟨rfl, hcount⟩ := hwritten hi
    exact hcount.symm
  | false =>
    rw [Arguments.length_flatten hvalues, hplain hi]
    exact Statement.slotCount_of_build hm hc hs htext hargs

/-! rows of known values and of a record, and a record with a list for one of its two columns -/

def upserting : List (Use Insert) :=
  [.edit (.columns ["a", "b"]), .edit (.values [.int 1, .null]),
    .edit (.records [Statement.questions]), .edit (.onDuplicate "b" (.expression "b + ?" [.int 2]))]

theorem Builder.exec_sent_upsert :
    ∃ built values, (Statement.insert Statement.upsert).build.2 = .ok built ∧
      .executed {} (.direct built.sql values) ∈
        ((ofDraft Statement.upsert).exec Bulk.slow {} ()).1 ∧
      (∀ v ∈ values, v.isList = false ∧ v.isValue = false) ∧ values.length = count built.sql := by
  have hus : (ofDraft (Insert.ofTable "t")).uses upserting = .ok (ofDraft Statement.upsert) := by cbv
  have hsent : .executed {} (.direct ("INSERT INTO `t` (`a`,`b`) VALUES (?,?),(?,?)" ++
        " ON DUPLICATE KEY UPDATE `b`=b + ?").toList
          [.int 1, .null, .string "?", .string "?", .int 2]) ∈
      ((ofDraft Statement.upsert).exec Bulk.slow {} ()).1 := by
    refine List.mem_of_mem_filter (p := Entry.isFlown) ?_
    have hflown : ((ofDraft Statement.upsert).exec Bulk.slow {} ()).1.filter Entry.isFlown =
        [.asked ⟨"questions", .insert, .values, ["a", "b"], 2⟩,
          .executed {} (.direct ("INSERT INTO `t` (`a`,`b`) VALUES (?,?),(?,?)" ++
            " ON DUPLICATE KEY UPDATE `b`=b + ?").toList
              [.int 1, .null, .string "?", .string "?", .int 2])] := by cbv
    rw [hflown]
    exact List.mem_cons_of_mem _ (List.mem_cons_self ..)
  obtain ⟨built, values, hbuilt, _, _, hr, hscalar, _, _, hlength⟩ := exec_sent hus hsent
  refine ⟨built, values, hbuilt, hr ▸ hsent, hscalar, ?_⟩
  exact hlength Statement.made_upsert Statement.closed_upsert Statement.supplied_upsert

def listing : Insert where
  table := "t"
  columns := ["a", "b"]
  records := [Bulk.listed]

def marking : Insert where
  table := "t"
  columns := ["a"]
  rows := [[.value 0 "v" (.ok .pending)]]

/-- a list of a record's is bound member by member to the placeholders of two columns, and a driver
value hands over a marker -/
theorem Builder.exec_unchecked :
    (∃ sql, (ofDraft (Insert.ofTable "t")).uses [.edit (Insert.Edit.columns ["a", "b"]),
        .edit (Insert.Edit.records [Bulk.listed])] = .ok (ofDraft listing) ∧
      .executed {} (.direct sql [.int 1, .int 2, .bool true]) ∈
        ((ofDraft listing).exec Bulk.slow {} ()).1 ∧ count sql = 2) ∧
    ∃ sql, (ofDraft (Insert.ofTable "t")).uses [.edit (Insert.Edit.columns ["a"]),
        .edit (Insert.Edit.values [.value 0 "v" (.ok .pending)])] = .ok (ofDraft marking) ∧
      .executed {} (.direct sql [.pending]) ∈ ((ofDraft marking).exec Bulk.slow {} ()).1 := by
  refine ⟨⟨"INSERT INTO `t` (`a`,`b`) VALUES (?,?)".toList, rfl, ?_, by decide⟩,
    "INSERT INTO `t` (`a`) VALUES (?)".toList, by cbv, ?_⟩
  · have hflown : ((ofDraft listing).exec Bulk.slow {} ()).1.filter Entry.isFlown =
        [.asked ⟨"listed", .insert, .values, ["a", "b"], 0⟩,
          .executed {} (.direct "INSERT INTO `t` (`a`,`b`) VALUES (?,?)".toList
            [.int 1, .int 2, .bool true])] := by cbv
    refine List.mem_of_mem_filter (p := Entry.isFlown) ?_
    rw [hflown]
    exact List.mem_cons_of_mem _ (List.mem_cons_self ..)
  · have hflown : ((ofDraft marking).exec Bulk.slow {} ()).1.filter Entry.isFlown =
        [.executed {} (.direct "INSERT INTO `t` (`a`) VALUES (?)".toList [.pending])] := by cbv
    refine List.mem_of_mem_filter (p := Entry.isFlown) ?_
    rw [hflown]
    exact List.mem_cons_self ..

end BoundSql
