import FormulaReader.Proofs.Deeds
import FormulaReader.Proofs.Turns

/-!
Limits: a sink that accepts only so many bytes and so many flushes cuts a session short, and does
nothing else to it. All goes as on a sink that never fails, up to the first deed that goes beyond a
limit; that deed is not done, nothing is done after it, and the session fails.
-/

namespace FormulaReader

/-! ## What a sink allows for -/

/-- There is enough left for `n` uses. -/
def Allowance.Allows : Allowance → Nat → Prop
  | .unlimited, _ => True
  | .limited left, n => n ≤ left

/-- The sink has room for the bytes that the deeds write, and accepts as many flushes. -/
structure Sink.Allows (sink : Sink) (deeds : List Deed) : Prop where
  bytes : sink.bytes.Allows (deeds.flatMap Deed.written).length
  flushes : sink.flushes.Allows (deeds.count .flushed)

/-- Once `done` is done, the limit that is met by `next` is used up. -/
inductive Sink.Refuses (sink : Sink) (done : List Deed) : (next : Deed) → SinkFault → Prop
  | full {byte : UInt8} :
      sink.bytes = .limited (done.flatMap Deed.written).length →
      Refuses sink done (.wrote byte) .full
  | flushRefused :
      sink.flushes = .limited (done.count .flushed) →
      Refuses sink done .flushed .flushRefused

/-- Of the deeds `whole`, `cut` are as many as the sink allows for. -/
structure Sink.Cuts (sink : Sink) (whole cut : List Deed) : Prop where
  front : cut <+: whole
  allowed : sink.Allows cut
  longest : ∀ other, other <+: whole → sink.Allows other → other <+: cut

namespace Allowance

variable {allowance left : Allowance}

theorem allows_zero (allowance : Allowance) : allowance.Allows 0 := by
  cases allowance with
  | unlimited => trivial
  | limited left => exact Nat.zero_le left

theorem Allows.of_le {m n : Nat} (allows : allowance.Allows n) (fewer : m ≤ n) :
    allowance.Allows m := by
  cases allowance with
  | unlimited => trivial
  | limited left => exact Nat.le_trans fewer allows

theorem allows_succ_of_spend? (spent : allowance.spend? = some left) {n : Nat}
    (allows : left.Allows n) :
    allowance.Allows (n + 1) := by
  cases allowance with
  | unlimited => trivial
  | limited uses =>
      cases uses with
      | zero => cases spent
      | succ uses =>
          cases spent
          exact Nat.succ_le_succ allows

theorem eq_limited_succ_of_spend? (spent : allowance.spend? = some left) {n : Nat}
    (usedUp : left = .limited n) :
    allowance = .limited (n + 1) := by
  subst usedUp
  cases allowance with
  | unlimited => cases spent
  | limited uses =>
      cases uses with
      | zero => cases spent
      | succ uses =>
          cases spent
          rfl

theorem eq_limited_zero_of_spend? (spent : allowance.spend? = none) : allowance = .limited 0 := by
  cases allowance with
  | unlimited => cases spent
  | limited uses =>
      cases uses with
      | zero => rfl
      | succ uses => cases spent

end Allowance

namespace Sink

variable {sink : Sink} {done : List Deed} {next : Deed} {fault : SinkFault}

theorem allows_nil (sink : Sink) : sink.Allows [] :=
  ⟨sink.bytes.allows_zero, sink.flushes.allows_zero⟩

theorem Allows.of_append {rest : List Deed} (allows : sink.Allows (done ++ rest)) :
    sink.Allows done := by
  obtain ⟨bytes, flushes⟩ := allows
  rw [List.flatMap_append, List.length_append] at bytes
  rw [List.count_append] at flushes
  exact ⟨bytes.of_le (Nat.le_add_right _ _), flushes.of_le (Nat.le_add_right _ _)⟩

theorem Refuses.not_allows (refuses : sink.Refuses done next fault) :
    ¬ sink.Allows (done ++ [next]) := by
  rintro ⟨bytes, flushes⟩
  cases refuses with
  | full usedUp =>
      rw [usedUp, List.flatMap_append, List.length_append] at bytes
      exact Nat.not_succ_le_self _ bytes
  | flushRefused usedUp =>
      rw [usedUp, List.count_append] at flushes
      exact Nat.not_succ_le_self _ flushes

theorem Refuses.cuts (refuses : sink.Refuses done next fault) (allows : sink.Allows done)
    (rest : List Deed) :
    sink.Cuts (done ++ next :: rest) done := by
  refine ⟨List.prefix_append done _, allows, ?_⟩
  intro other front allowsOther
  rcases List.prefix_or_prefix_of_prefix front (List.prefix_append done (next :: rest)) with
    shorter | longer
  · exact shorter
  · obtain ⟨more, rfl⟩ := longer
    cases more with
    | nil => exact (List.append_nil done).symm ▸ List.prefix_rfl
    | cons first later =>
        obtain ⟨same, _⟩ := List.cons_prefix_cons.mp ((List.prefix_append_right_inj done).mp front)
        rw [same, List.append_cons] at allowsOther
        exact absurd allowsOther.of_append refuses.not_allows

end Sink

/-! ## Performing on a sink -/

namespace Reporting

section

variable {sink : Sink} {left : Allowance}

theorem writeByte_of_some {byte : UInt8} (spent : sink.bytes.spend? = some left) :
    writeByte byte sink = ⟨.ok (), { sink with bytes := left }, [.wrote byte]⟩ := by
  rw [writeByte, spent]

theorem writeByte_of_none {byte : UInt8} (spent : sink.bytes.spend? = none) :
    writeByte byte sink = ⟨.error .full, sink, []⟩ := by
  rw [writeByte, spent]

theorem flush_of_some (spent : sink.flushes.spend? = some left) :
    flush sink = ⟨.ok (), { sink with flushes := left }, [.flushed]⟩ := by
  rw [flush, spent]

theorem flush_of_none (spent : sink.flushes.spend? = none) :
    flush sink = ⟨.error .flushRefused, sink, []⟩ := by
  rw [flush, spent]

end

/-- One event is either performed, and takes its part of what the sink allows for, or refused. -/
theorem perform_cases (event : Event) (sink : Sink) :
    (∃ left, perform event sink = ⟨.ok (), left, [event]⟩ ∧
      (∀ done, left.Allows done → sink.Allows (event.deeds ++ done)) ∧
      ∀ done next fault, left.Refuses done next fault →
        sink.Refuses (event.deeds ++ done) next fault) ∨
    ∃ deed fault, event.deeds = [deed] ∧ perform event sink = ⟨.error fault, sink, []⟩ ∧
      sink.Refuses [] deed fault := by
  cases event with
  | read lexeme =>
      have writesNothing := Deed.flatMap_written_pulled lexeme.pulled
      have flushesNothing := Deed.count_flushed_pulled lexeme.pulled
      refine .inl ⟨sink, rfl, ?_, ?_⟩
      · rintro done ⟨bytes, flushes⟩
        constructor
        · rwa [Event.deeds, List.flatMap_append, writesNothing, List.nil_append]
        · rwa [Event.deeds, List.count_append, flushesNothing, Nat.zero_add]
      · intro done next fault refuses
        cases refuses with
        | full usedUp =>
            refine .full ?_
            rwa [Event.deeds, List.flatMap_append, writesNothing, List.nil_append]
        | flushRefused usedUp =>
            refine .flushRefused ?_
            rwa [Event.deeds, List.count_append, flushesNothing, Nat.zero_add]
  | noted note => exact .inl ⟨sink, rfl, fun _ allows => allows, fun _ _ _ refuses => refuses⟩
  | wrote byte =>
      have oneByte : ∀ done, ((Event.wrote byte).deeds ++ done).flatMap Deed.written =
          byte :: done.flatMap Deed.written := fun _ => rfl
      have noFlush : ∀ done, ((Event.wrote byte).deeds ++ done).count .flushed =
          done.count .flushed := fun _ => List.count_cons_of_ne (by simp)
      cases spent : sink.bytes.spend? with
      | none =>
          refine .inr ⟨.wrote byte, .full, rfl, writeByte_of_none spent, .full ?_⟩
          rw [List.flatMap_nil, List.length_nil]
          exact Allowance.eq_limited_zero_of_spend? spent
      | some bytes =>
          refine .inl ⟨{ sink with bytes }, writeByte_of_some spent, ?_, ?_⟩
          · intro done allows
            constructor
            · rw [oneByte, List.length_cons]
              exact Allowance.allows_succ_of_spend? spent allows.bytes
            · rw [noFlush]
              exact allows.flushes
          · intro done next fault refuses
            cases refuses with
            | full usedUp =>
                refine .full ?_
                rw [oneByte, List.length_cons]
                exact Allowance.eq_limited_succ_of_spend? spent usedUp
            | flushRefused usedUp =>
                refine .flushRefused ?_
                rw [noFlush]
                exact usedUp
  | flushed =>
      have noByte : ∀ done, (Event.flushed.deeds ++ done).flatMap Deed.written =
          done.flatMap Deed.written := fun _ => rfl
      have oneFlush : ∀ done, (Event.flushed.deeds ++ done).count .flushed =
          done.count .flushed + 1 := fun _ => List.count_cons_self
      cases spent : sink.flushes.spend? with
      | none =>
          refine .inr ⟨.flushed, .flushRefused, rfl, flush_of_none spent, .flushRefused ?_⟩
          rw [List.count_nil]
          exact Allowance.eq_limited_zero_of_spend? spent
      | some flushes =>
          refine .inl ⟨{ sink with flushes }, flush_of_some spent, ?_, ?_⟩
          · intro done allows
            constructor
            · rw [noByte]
              exact allows.bytes
            · rw [oneFlush]
              exact Allowance.allows_succ_of_spend? spent allows.flushes
          · intro done next fault refuses
            cases refuses with
            | full usedUp =>
                refine .full ?_
                rw [noByte]
                exact usedUp
            | flushRefused usedUp =>
                refine .flushRefused ?_
                rw [oneFlush]
                exact Allowance.eq_limited_succ_of_spend? spent usedUp

/-- A script is performed to its end, or up to an event whose deed meets a limit. -/
theorem performAll_cases (script : List Event) (sink : Sink) :
    ((performAll script sink).result = .ok () ∧ (performAll script sink).events = script ∧
      sink.Allows (script.flatMap Event.deeds)) ∨
    ∃ done event rest deed fault,
      script = done ++ event :: rest ∧ event.deeds = [deed] ∧
      (performAll script sink).result = .error fault ∧ (performAll script sink).events = done ∧
      sink.Allows (done.flatMap Event.deeds) ∧
      sink.Refuses (done.flatMap Event.deeds) deed fault := by
  induction script generalizing sink with
  | nil => exact .inl ⟨rfl, rfl, sink.allows_nil⟩
  | cons event later ih =>
      rcases perform_cases event sink with
        ⟨left, performed, allows, refuses⟩ | ⟨deed, fault, single, failed, refuses⟩
      · have onward : performAll (event :: later) sink = (performAll later left).after [event] := by
          rw [performAll, Activity.bind_apply, performed, Activity.andThen_ok]
        rw [onward, Outcome.result_after, Outcome.events_after]
        -- What `left` allows for or refuses, `sink` does one event later.
        rcases ih left with
          ⟨succeeded, all, enough⟩ |
            ⟨done, stopping, rest, deed, fault, parted, single, failed, before, enough, beyond⟩
        · refine .inl ⟨succeeded, by rw [all]; rfl, ?_⟩
          exact allows _ enough
        · refine .inr ⟨event :: done, stopping, rest, deed, fault, ?_, single, failed, ?_, ?_, ?_⟩
          · rw [parted, List.cons_append]
          · rw [before]
            rfl
          · exact allows _ enough
          · exact refuses _ deed fault beyond
      · have stopped : performAll (event :: later) sink = ⟨.error fault, sink, []⟩ := by
          rw [performAll, Activity.bind_apply, failed, Activity.andThen_error]
        rw [stopped]
        exact .inr ⟨[], event, later, deed, fault, rfl, single, rfl, rfl, sink.allows_nil, refuses⟩

theorem Performs.result_eq {α : Type} {m : Reporting α} {script : List Event} {a : α}
    (performs : Performs m script a) (sink : Sink) :
    (m sink).result = (performAll script sink).result.map fun _ => a := by
  rw [performs, Activity.bind_apply, Activity.andThen]
  cases (performAll script sink).result <;> rfl

theorem Performs.events_eq {α : Type} {m : Reporting α} {script : List Event} {a : α}
    (performs : Performs m script a) (sink : Sink) :
    (m sink).events = (performAll script sink).events := by
  rw [performs, Activity.bind_apply, Activity.andThen]
  cases (performAll script sink).result with
  | error fault => rfl
  | ok done => exact List.append_nil _

end Reporting

/-! ## Sessions on a limited sink -/

/-- What a session does on a sink is as much of what it does on a sink that never fails as the
sink allows for. It ends well, and then with the same report, exactly if that is all; otherwise
it fails with the fault of the limit that the next deed meets. -/
theorem Session.run_cut_short (table : Precedence) (options : SessionOptions) (c : Cursor)
    (sink : Sink) :
    ∃ report,
      let whole := run table options c .unlimited
      let cut := run table options c sink
      let wholeDeeds := whole.events.flatMap Event.deeds
      let cutDeeds := cut.events.flatMap Event.deeds
      whole.result = .ok report ∧ sink.Cuts wholeDeeds cutDeeds ∧
        (∀ other, cut.result = .ok other ↔ other = report ∧ cutDeeds = wholeDeeds) ∧
        ∀ next rest, wholeDeeds = cutDeeds ++ next :: rest →
          ∃ fault, sink.Refuses cutDeeds next fault ∧ cut.result = .error fault := by
  have performs := performs_run table options c
  refine ⟨_, (congrArg Outcome.result performs.outcome), ?_⟩
  rw [performs.outcome, performs.result_eq sink, performs.events_eq sink]
  rcases Reporting.performAll_cases (script table options c) sink with
    ⟨succeeded, all, enough⟩ |
      ⟨done, event, later, deed, fault, parted, single, failed, before, enough, beyond⟩
  · rw [succeeded, all]
    refine ⟨⟨List.prefix_rfl, enough, fun _ front _ => front⟩, ?_, ?_⟩
    · intro other
      constructor
      · intro ended
        cases ended
        exact ⟨rfl, rfl⟩
      · rintro ⟨rfl, _⟩
        rfl
    · intro next rest more
      exact absurd (List.self_eq_append_right.mp more) (List.cons_ne_nil next rest)
  · have wholeDeeds : (script table options c).flatMap Event.deeds =
        done.flatMap Event.deeds ++ deed :: later.flatMap Event.deeds := by
      rw [parted, List.flatMap_append, List.flatMap_cons, single, List.singleton_append]
    rw [failed, before, wholeDeeds]
    refine ⟨beyond.cuts enough _, ?_, ?_⟩
    · intro other
      constructor
      · intro ended
        cases ended
      · rintro ⟨_, all⟩
        exact absurd (List.self_eq_append_right.mp all) (List.cons_ne_nil deed _)
    · intro next rest more
      obtain ⟨rfl, _⟩ := List.cons.inj (List.append_cancel_left more)
      exact ⟨fault, beyond, rfl⟩

/-- The prompt before the first turn no longer fits: its blank is not written, and the second flush
does not happen. -/
example :
    let cut := Session.run .standard ⟨some "> ", false, true⟩
      (Cursor.ofFeed ("a".toList.map some)) ⟨.limited 3, .unlimited⟩
    cut.events.flatMap Event.deeds =
        [.wrote 62, .wrote 32, .flushed, .pulled (some 'a'), .pulled none, .wrote 62] ∧
      cut.result.toOption = none := by
  decide +kernel

end FormulaReader
