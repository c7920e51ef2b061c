import Mathlib.Data.List.Basic
import ValueMesh.Machine.Store
import ValueMesh.Notice.Operation
import ValueMesh.Proofs.InPlace
/-!
# What becomes of every notice

Notices leave an inbox from the front only, whether they are taken out, lost to a full inbox or dropped.  So a history
is a ledger: the notices it brings, in the order it brings them, each with the one thing that became of it
(`every_notice_has_one_fate`).
-/
namespace ValueMesh
namespace Inbox

inductive Fate
  | drained
  /-- Lost to a full inbox, at the push with this number. -/
  | evicted (push : Nat)
  | dropped
  | pending
  deriving DecidableEq, Repr

def Fate.evictor? : Fate → Option Nat
  | evicted push => some push
  | drained | dropped | pending => none

def Operation.fate (k : Nat) : Operation → Fate
  | push _ => .evicted k
  | pop => .drained
  | clear => .dropped

/-- The notices that leave under an operation: as many of the oldest as are missing after it. -/
def leaving (q : Inbox) (op : Operation) : List Notice :=
  q.pending.take (q.pending.length + op.arrival?.toList.length - (q.perform op).2.pending.length)

def departures (q : Inbox) (k : Nat) : List Operation → List (Notice × Fate)
  | [] => []
  | op :: rest => (q.leaving op).map (·, op.fate k) ++
    (q.perform op).2.departures (k + op.arrival?.toList.length) rest

/-- What became of the notices a history brought to an empty inbox: of those that left, and of those that are in it. -/
def ledger (history : List Operation) : List (Notice × Fate) :=
  empty.departures 0 history ++ (empty.run history).pending.map (·, .pending)

def sharing (fate : Fate) (fates : List (Notice × Fate)) : List Notice :=
  (fates.filter (·.2 = fate)).map Prod.fst

theorem sharing_append (fate : Fate) (a b : List (Notice × Fate)) :
    sharing fate (a ++ b) = sharing fate a ++ sharing fate b := by
  simp [sharing]

theorem sharing_map_self (fate : Fate) (l : List Notice) : sharing fate (l.map (·, fate)) = l := by
  simp [sharing, List.filter_map, Function.comp_def]

theorem sharing_map_of_ne {fate fate' : Fate} (l : List Notice) (h : fate' ≠ fate) :
    sharing fate (l.map (·, fate')) = [] := by
  simp [sharing, List.filter_map, Function.comp_def, h]

theorem map_fst_map (fate : Fate) (l : List Notice) : (l.map (·, fate)).map Prod.fst = l := by
  simp [Function.comp_def]

theorem fate_of_getElem?_map {fate fate' : Fate} {l : List Notice} {i : Nat} {n : Notice}
    (h : (l.map (·, fate))[i]? = some (n, fate')) : i < l.length ∧ fate = fate' := by
  obtain ⟨hi, he⟩ := List.getElem?_eq_some_iff.1 h
  rw [List.getElem_map] at he
  exact ⟨by rwa [List.length_map] at hi, congrArg Prod.snd he⟩

/-! ## What leaves under an operation -/

theorem leaving_push_of_room {q : Inbox} (n : Notice) (h : q.pending.length < capacity) : q.leaving (.push n) = [] := by
  simp [leaving, perform, push_of_room n h, Operation.arrival?]

theorem leaving_push_of_full {q : Inbox} (n : Notice) (h : capacity ≤ q.pending.length) :
    q.leaving (.push n) = q.pending.take 1 := by
  have : 0 < capacity := by decide
  have : q.pending.length + 1 - (q.pending.length - 1 + 1) = 1 := by omega
  simp [leaving, perform, push_of_full n h, Operation.arrival?, this]

theorem leaving_pop_cons (n : Notice) (rest : List Notice) (lost : Nat) : leaving ⟨n :: rest, lost⟩ .pop = [n] := by
  have : rest.length + 1 - rest.length = 1 := by omega
  simp [leaving, perform, pop, Operation.arrival?, this]

theorem leaving_clear (q : Inbox) : q.leaving .clear = q.pending := by
  simp [leaving, perform, clear, Operation.arrival?]

/-! ## What a history is booked as -/

/-- What happened between two inboxes, when `k` pushes were made before: what was brought, what was answered, and what
left with its fate. -/
structure Accounted (q : Inbox) (k : Nat) (brought : List Notice) (answers : List Answer)
    (left : List (Notice × Fate)) (q' : Inbox) : Prop where
  conserved : q.pending ++ brought = left.map Prod.fst ++ q'.pending
  room : q.pending.length ≤ capacity → q'.pending.length ≤ capacity
  /-- The `i`th to leave was brought `i` places after the oldest that was there, and that one by push
  `k - q.pending.length`. -/
  place : q.pending.length ≤ capacity → ∀ i n j, left[i]? = some (n, .evicted j) →
    j + q.pending.length = k + i + capacity
  drained : sharing .drained left = answers.filterMap Answer.notice?
  gone : sharing .pending left = []
  told : (answers.filterMap Answer.evicts?).length = brought.length
  evictors : left.filterMap (·.2.evictor?) = (answers.filterMap Answer.evicts?).idxsOf true k
  lost : ∀ n, q.lost = min n Tally.limit →
    q'.lost = min (n + (answers.filterMap Answer.evicts?).count true) Tally.limit

namespace Accounted

theorem refl (q : Inbox) (k : Nat) : Accounted q k [] [] [] q where
  conserved := by simp
  room := id
  place _ _ _ _ h := by simp at h
  drained := rfl
  gone := rfl
  told := rfl
  evictors := rfl
  lost _ := id

theorem trans {q q' q'' : Inbox} {k : Nat} {brought brought' : List Notice} {answers answers' : List Answer}
    {left left' : List (Notice × Fate)} (first : Accounted q k brought answers left q')
    (second : Accounted q' (k + brought.length) brought' answers' left' q'') :
    Accounted q k (brought ++ brought') (answers ++ answers') (left ++ left') q'' where
  conserved := by
    rw [← List.append_assoc, first.conserved, List.append_assoc, second.conserved, List.map_append, List.append_assoc]
  room fits := second.room (first.room fits)
  place fits i n j h := by
    by_cases early : i < left.length
    · rw [List.getElem?_append_left early] at h
      exact first.place fits i n j h
    · rw [List.getElem?_append_right (Nat.not_lt.1 early)] at h
      have later := second.place (first.room fits) _ n j h
      have conserved := congrArg List.length first.conserved
      simp only [List.length_append, List.length_map] at conserved
      omega
  drained := by rw [sharing_append, first.drained, second.drained, List.filterMap_append]
  gone := by rw [sharing_append, first.gone, second.gone, List.append_nil]
  told := by rw [List.filterMap_append, List.length_append, first.told, second.told, List.length_append]
  evictors := by
    rw [List.filterMap_append, first.evictors, second.evictors, List.filterMap_append, List.idxsOf_append, first.told]
  lost n hn := by
    rw [List.filterMap_append, List.count_append, ← Nat.add_assoc]
    exact second.lost _ (first.lost n hn)

variable (q : Inbox) (k : Nat)

theorem push (n : Notice) : Accounted q k [n] [.pushed (q.push n).1] ((q.leaving (.push n)).map (·, .evicted k))
    (q.push n).2 := by
  by_cases room : q.pending.length < capacity
  · rw [push_of_room n room, leaving_push_of_room n room]
    constructor
    case room => exact fun _ => by rwa [List.length_append]
    case place => exact fun _ _ _ _ h => by cases h
    case lost => exact fun _ => id
    all_goals rfl
  · have full := Nat.not_lt.1 room
    obtain ⟨oldest, rest, hp⟩ := List.exists_cons_of_length_pos (Nat.lt_of_lt_of_le (show 0 < capacity by decide) full)
    rw [push_of_full n full, leaving_push_of_full n full]
    constructor
    case conserved => simp [hp]
    case room => simp [hp]
    case place =>
      intro fits i n' j h
      obtain ⟨hi, hj⟩ := fate_of_getElem?_map h
      cases hj
      rw [List.length_take] at hi
      omega
    case lost => exact fun m hm => (congrArg Tally.bump hm).trans (Tally.bump_min m)
    all_goals simp [hp, sharing, Fate.evictor?, Answer.evicts?, Answer.notice?]

theorem pop : Accounted q k [] [(q.perform .pop).1] ((q.leaving .pop).map (·, .drained)) (q.perform .pop).2 := by
  obtain ⟨pending, lost⟩ := q
  match pending with
  | [] =>
    constructor
    case room => exact id
    case place => exact fun _ _ _ _ h => by cases h
    case lost => exact fun _ => id
    all_goals rfl
  | n :: rest =>
    rw [leaving_pop_cons]
    constructor
    case room => exact Nat.le_of_succ_le
    case place => exact fun _ _ _ _ h => nomatch (fate_of_getElem?_map h).2
    case lost => exact fun _ => id
    case conserved => exact List.append_nil _
    all_goals rfl

theorem clear : Accounted q k [] [.cleared] ((q.leaving .clear).map (·, .dropped)) q.clear := by
  rw [leaving_clear]
  constructor
  case conserved => rw [map_fst_map]; rfl
  case room => exact fun _ => Nat.zero_le _
  case place => exact fun _ _ _ _ h => nomatch (fate_of_getElem?_map h).2
  case drained => exact sharing_map_of_ne _ nofun
  case gone => exact sharing_map_of_ne _ nofun
  case told => rfl
  case evictors => rw [List.filterMap_map]; exact List.filterMap_eq_nil_iff.2 fun _ _ => rfl
  case lost => exact fun _ => id

/-- **One operation is booked as what it does.** -/
theorem perform (op : Operation) : Accounted q k op.arrival?.toList [(q.perform op).1]
    ((q.leaving op).map (·, op.fate k)) (q.perform op).2 := by
  cases op with
  | push n => exact push q k n
  | pop => exact pop q k
  | clear => exact clear q k

theorem run : ∀ (q : Inbox) (k : Nat) (history : List Operation),
    Accounted q k (arrivals history) (q.answers history) (q.departures k history) (q.run history)
  | q, k, [] => refl q k
  | q, k, op :: rest => by
    have arrivals_eq : arrivals (op :: rest) = op.arrival?.toList ++ arrivals rest := by
      cases op <;> rfl
    rw [arrivals_eq]
    exact (perform q k op).trans (run _ _ rest)

end Accounted

theorem lost_perform_of_no_arrival (q : Inbox) {op : Operation} (h : op.arrival? = none) :
    (q.perform op).2.lost = q.lost := by
  match op with
  | .clear => rfl
  | .pop =>
    obtain ⟨_ | _, _⟩ := q
    · rfl
    · rfl

/-- A notice that was lost was lost at the sixteenth push after its own. -/
theorem evictor_of_getElem?_ledger {history : List Operation} {i j : Nat} {n : Notice}
    (h : (ledger history)[i]? = some (n, .evicted j)) : j = i + capacity := by
  unfold ledger at h
  by_cases early : i < (empty.departures 0 history).length
  · rw [List.getElem?_append_left early] at h
    have place := (Accounted.run empty 0 history).place (Nat.zero_le _) i n j h
    rwa [Nat.zero_add] at place
  · rw [List.getElem?_append_right (Nat.not_lt.1 early)] at h
    nomatch (fate_of_getElem?_map h).2

/-- **Every notice has one fate.**  Take any history from the empty inbox.  Its ledger lists the notices it brought in
the order it brought them, so that each of them was taken out, was lost to a full inbox, was dropped or is still
pending, and just one of these.  Those that are pending are the last that were brought; those that were taken out are
the answers, in order; and one that was lost was lost at the sixteenth push after its own, so that it was pending at
all the pushes between.  A push tells that a notice was lost just when its number stands in the ledger, and the count of
lost notices is theirs, as far as it can count, and no other operation changes it.  At most sixteen are pending, so a
push into the memory laid out for them finds its place and does the same. -/
theorem every_notice_has_one_fate (history : List Operation) :
    let q := empty.run history
    let fates := ledger history
    let told := (empty.answers history).filterMap Answer.evicts?
    fates.map Prod.fst = arrivals history ∧
    sharing .pending fates = q.pending ∧
    q.pending = (arrivals history).drop ((arrivals history).length - q.pending.length) ∧
    sharing .drained fates = (empty.answers history).filterMap Answer.notice? ∧
    (∀ i n j, fates[i]? = some (n, .evicted j) → j = i + capacity) ∧
    told.length = (arrivals history).length ∧
    fates.filterMap (·.2.evictor?) = told.idxsOf true ∧
    q.lost = min (fates.filterMap (·.2.evictor?)).length Tally.limit ∧
    (∀ op : Operation, op.arrival? = none → (q.perform op).2.lost = q.lost) ∧
    q.pending.length ≤ capacity ∧
    (∀ n, Machine.push n q = .ok (.ok (q.push n).1, (q.push n).2)) := by
  intro q fates told
  have accounted : Accounted empty 0 (arrivals history) (empty.answers history) (empty.departures 0 history) q :=
    .run empty 0 history
  have fits : q.pending.length ≤ capacity := accounted.room (Nat.zero_le _)
  have conserved : arrivals history = (empty.departures 0 history).map Prod.fst ++ q.pending := accounted.conserved
  have evictors : fates.filterMap (·.2.evictor?) = told.idxsOf true := by
    have stay : (q.pending.map (·, Fate.pending)).filterMap (·.2.evictor?) = [] := by
      rw [List.filterMap_map]
      exact List.filterMap_eq_nil_iff.2 fun _ _ => rfl
    exact (List.filterMap_append ..).trans (by rw [accounted.evictors, stay, List.append_nil])
  refine ⟨?_, ?_, ?_, ?_, fun _ _ _ => evictor_of_getElem?_ledger, accounted.told, evictors, ?_,
    fun _ => q.lost_perform_of_no_arrival, fits, Machine.push_eq fits⟩
  · rw [conserved]
    exact List.map_append.trans (by rw [map_fst_map])
  · exact (sharing_append ..).trans (by rw [accounted.gone, sharing_map_self, List.nil_append])
  · rw [conserved, List.length_append, Nat.add_sub_cancel, List.drop_left]
  · have stay : sharing .drained (q.pending.map (·, .pending)) = [] := sharing_map_of_ne _ nofun
    exact (sharing_append ..).trans (by rw [accounted.drained, stay, List.append_nil])
  · rw [evictors, List.length_idxsOf]
    have lost := accounted.lost 0 rfl
    rwa [Nat.zero_add] at lost

/-- The first of seventeen notices is lost to the last of them, the second is taken out, the others are dropped, and an
eighteenth is pending. -/
theorem eighteen_notices_have_one_fate :
    let notice (i : Nat) : Notice := ⟨.newVal, 1, [UInt8.ofNat i], .unset⟩
    let history := (List.range 17).map (fun i => Operation.push (notice i)) ++ [.pop, .clear, .push (notice 17)]
    let q := empty.run history
    (ledger history)[0]? = some (notice 0, .evicted 16) ∧ 16 = 0 + capacity ∧
    sharing .drained (ledger history) = [notice 1] ∧ q.pending = [notice 17] ∧ q.lost = 1 ∧
    Operation.clear.arrival? = none ∧ (q.perform .clear).2.lost = q.lost := by
  intro notice history q
  obtain ⟨-, -, -, drained, sixteenth, -, -, -, kept, -, -⟩ := every_notice_has_one_fate history
  have first : (ledger history)[0]? = some (notice 0, .evicted 16) := by decide
  exact ⟨first, sixteenth 0 _ 16 first, drained.trans (by decide), by decide, by decide, rfl, kept .clear rfl⟩

end Inbox
end ValueMesh
