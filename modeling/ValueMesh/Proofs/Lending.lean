import ValueMesh.Proofs.Steps
import ValueMesh.Session.Operation
/-!
# Every window that is asked for is accounted for

The arbiter may signal what it likes, twice or late, and a request may also be refused at once.  Still windows open and
close in turn, the radio is used in between only, and of the windows that were asked for each is granted once or denied
once, but for the one that is still awaited (`every_request_is_accounted_for`).
-/
namespace ValueMesh
namespace Session

/-! ## Windows that open and close -/

inductive Follows : Bool → WindowStep → Bool → Prop
  | none (isOpen : Bool) : Follows isOpen .none isOpen
  | request (length : Nat) : Follows false (.requestWindow length) false
  | opens : Follows false .openWindow true
  | continues : Follows true .continueWindow true
  | closes : Follows true .closeWindow false

inductive Bracketed : Bool → List WindowStep → Bool → Prop
  | nil (isOpen : Bool) : Bracketed isOpen [] isOpen
  | cons {isOpen between isOpen' step steps} (follows : Follows isOpen step between)
      (rest : Bracketed between steps isOpen') : Bracketed isOpen (step :: steps) isOpen'

def borders (steps : List WindowStep) : List WindowStep := steps.filter WindowStep.isBorder

/-- The border passed last while a window is open, and while none is. -/
def latest (isOpen : Bool) : WindowStep := if isOpen then .openWindow else .closeWindow

namespace Bracketed

variable {isOpen isOpen' : Bool} {steps : List WindowStep}

theorem append {isOpen'' : Bool} {steps' : List WindowStep} (hb : Bracketed isOpen steps isOpen')
    (hb' : Bracketed isOpen' steps' isOpen'') : Bracketed isOpen (steps ++ steps') isOpen'' := by
  induction hb with
  | nil => exact hb'
  | cons follows _ ih => exact .cons follows (ih hb')

theorem of_append {before after : List WindowStep} (hb : Bracketed isOpen (before ++ after) isOpen') :
    ∃ between, Bracketed isOpen before between ∧ Bracketed between after isOpen' := by
  induction before generalizing isOpen with
  | nil => exact ⟨isOpen, .nil _, hb⟩
  | cons step before ih =>
    cases hb with
    | cons follows rest =>
      obtain ⟨between, first, second⟩ := ih rest
      exact ⟨between, .cons follows first, second⟩

/-- With the close that is still to come, every window has its two borders, one window after the other. -/
theorem borders_eq (hb : Bracketed isOpen steps isOpen') :
    borders steps ++ (if isOpen' then [.closeWindow] else []) = (if isOpen then [.closeWindow] else []) ++
      (List.replicate (steps.count .openWindow) [.openWindow, .closeWindow]).flatten := by
  induction hb with
  | nil => simp [borders]
  | cons follows _ ih =>
    cases follows with
    | none | request | continues => exact ih
    | opens =>
      rw [borders, List.filter_cons_of_pos rfl, List.count_cons_self, List.replicate_succ]
      exact congrArg (List.cons .openWindow) ih
    | closes =>
      rw [borders, List.filter_cons_of_pos rfl]
      exact congrArg (List.cons .closeWindow) ih

theorem latest_border (hb : Bracketed isOpen steps isOpen') :
    (borders steps).getLast?.getD (latest isOpen) = latest isOpen' := by
  induction hb with
  | nil => rfl
  | cons follows _ ih =>
    cases follows with
    | none | request | continues => exact ih
    | opens | closes =>
      rw [borders, List.filter_cons_of_pos rfl, List.getLast?_cons, Option.getD_some]
      exact ih

/-- From a time when no window is open, one is then if the last border is one that opened it. -/
theorem isOpen_iff (hb : Bracketed false steps isOpen') :
    isOpen' = true ↔ (borders steps).getLast? = some .openWindow := by
  have latest_eq := hb.latest_border
  cases isOpen' <;> cases hl : (borders steps).getLast? <;> simp_all [latest]

/-- What is received is received between the opening of a window and its close. -/
theorem within {before after : List WindowStep} (hb : Bracketed false (before ++ .continueWindow :: after) isOpen') :
    (borders before).getLast? = some .openWindow ∧
    ∀ step, (borders after).head? = some step → step = .closeWindow := by
  obtain ⟨isOpen, first, second⟩ := hb.of_append
  cases second with
  | cons follows rest =>
    cases follows with
    | continues =>
      refine ⟨first.isOpen_iff.1 rfl, fun step hs => ?_⟩
      obtain ⟨later, hl⟩ := List.head?_eq_some_iff.1 hs
      have heq := rest.borders_eq
      rw [hl] at heq
      exact (List.cons.inj heq).1

end Bracketed

/-! ## What an operation does -/

inductive Turn (s : Session) : Option WindowStep → Bool → Session → Prop
  /-- Settings are taken on. -/
  | starts (cfg : Settings) (down : s.active = none) : Turn s none false { s with active := some (cfg, .idle) }
  | stays {step} (silent : step.getD .none = .none) : Turn s step false s
  | asks (cfg : Settings) (idle : s.active = some (cfg, .idle)) :
    Turn s (some (.requestWindow windowLength)) false { s with active := some (cfg, .requested) }
  | opens (cfg : Settings) (now : Nat) (requested : s.active = some (cfg, .requested)) :
    Turn s (some .openWindow) false ⟨some (cfg, .opened now), s.denied, Tally.bump s.granted⟩
  | denies {step} (cfg : Settings) (requested : s.active = some (cfg, .requested)) (silent : step.getD .none = .none) :
    Turn s step true ⟨some (cfg, .idle), Tally.bump s.denied, s.granted⟩
  | continues (cfg : Settings) (since : Nat) (opened : s.active = some (cfg, .opened since)) :
    Turn s (some .continueWindow) false s
  | closes (cfg : Settings) (since : Nat) (opened : s.active = some (cfg, .opened since)) :
    Turn s (some .closeWindow) false { s with active := some (cfg, .idle) }

theorem turn_perform (s : Session) (op : Operation) : Turn s (s.step? op) (s.denies op) (s.perform op) := by
  cases op with
  | configure cfg =>
    show Turn s none false _
    rw [perform]
    cases hc : s.configure cfg with
    | error _ => exact .stays rfl
    | ok s' =>
      rw [configure_of_ok hc]
      refine .starts cfg ?_
      cases ha : s.active with
      | none => rfl
      | some _ =>
        rw [configure_of_active cfg (by rw [ha]; rfl)] at hc
        cases hc
  | windowRefused =>
    obtain ⟨active, denied, granted⟩ := s
    match active with
    | none | some (_, .idle) | some (_, .opened _) => exact .stays rfl
    | some (cfg, .requested) => exact .denies cfg rfl rfl
  | signal sig now =>
    obtain ⟨active, denied, granted⟩ := s
    match active with
    | none => cases sig <;> exact .stays rfl
    | some (cfg, .idle) =>
      cases sig with
      | tick => exact .asks cfg rfl
      | started | denied | radio | ended => exact .stays rfl
    | some (cfg, .requested) =>
      cases sig with
      | started => exact .opens cfg now rfl
      | denied | ended => exact .denies cfg rfl rfl
      | tick | radio => exact .stays rfl
    | some (cfg, .opened since) =>
      cases sig with
      | radio => exact .continues cfg since rfl
      | denied | ended => exact .closes cfg since rfl
      | tick | started => exact .stays rfl

/-! ## What a history is booked as -/

def awaited (s : Session) : Nat := if s.phase? = some .requested then 1 else 0

/-- What happened between two sessions: the steps that were called for, and how many windows were denied. -/
structure Booked (s : Session) (steps : List WindowStep) (denials : Nat) (s' : Session) : Prop where
  bracketed : Bracketed s.inWindow steps s'.inWindow
  balance : s.awaited + steps.countP WindowStep.isRequest = steps.count .openWindow + denials + s'.awaited
  granted : ∀ n, s.granted = min n Tally.limit → s'.granted = min (n + steps.count .openWindow) Tally.limit
  denied : ∀ n, s.denied = min n Tally.limit → s'.denied = min (n + denials) Tally.limit

theorem Booked.refl (s : Session) : Booked s [] 0 s where
  bracketed := .nil _
  balance := Nat.add_comm ..
  granted _ := id
  denied _ := id

theorem Booked.trans {s s' s'' : Session} {steps steps' : List WindowStep} {denials denials' : Nat}
    (first : Booked s steps denials s') (second : Booked s' steps' denials' s'') :
    Booked s (steps ++ steps') (denials + denials') s'' where
  bracketed := first.bracketed.append second.bracketed
  balance := by
    have := first.balance
    have := second.balance
    rw [List.countP_append, List.count_append]
    omega
  granted n hn := by
    rw [List.count_append, ← Nat.add_assoc]
    exact second.granted _ (first.granted n hn)
  denied n hn := by
    rw [← Nat.add_assoc]
    exact second.denied _ (first.denied n hn)

/-- Where nothing is called for, or only the step that calls for nothing, there is nothing to book. -/
theorem Booked.of_silent (s : Session) {step : Option WindowStep} (silent : step.getD .none = .none) :
    Booked s step.toList 0 s := by
  cases step with
  | none => exact .refl s
  | some step =>
    obtain rfl : step = .none := silent
    exact ⟨.cons (.none _) (.nil _), Nat.add_comm .., fun _ => id, fun _ => id⟩

/-- **One operation is booked as what it does.** -/
theorem Booked.of_turn {s s' : Session} {step : Option WindowStep} {denies : Bool} (ht : Turn s step denies s') :
    Booked s step.toList denies.toNat s' := by
  obtain ⟨active, denied, granted⟩ := s
  cases ht with
  | stays silent => exact .of_silent _ silent
  | starts cfg down =>
    cases down
    exact ⟨.nil _, rfl, fun _ => id, fun _ => id⟩
  | asks cfg idle =>
    cases idle
    exact ⟨.cons (.request _) (.nil _), rfl, fun _ => id, fun _ => id⟩
  | opens cfg now requested =>
    cases requested
    exact ⟨.cons .opens (.nil _), rfl, fun n hn => (congrArg Tally.bump hn).trans (Tally.bump_min n), fun _ => id⟩
  | denies cfg requested silent =>
    cases requested
    -- A signal that denies calls for nothing, and a refusal gives no step at all: the denial is booked by itself.
    have denial : Booked ⟨some (cfg, .requested), denied, granted⟩ [] 1
        ⟨some (cfg, .idle), Tally.bump denied, granted⟩ :=
      ⟨.nil _, rfl, fun _ => id, fun n hn => (congrArg Tally.bump hn).trans (Tally.bump_min n)⟩
    have booked := (of_silent _ silent).trans denial
    rw [List.append_nil] at booked
    exact booked
  | continues cfg since opened =>
    cases opened
    exact ⟨.cons .continues (.nil _), rfl, fun _ => id, fun _ => id⟩
  | closes cfg since opened =>
    cases opened
    exact ⟨.cons .closes (.nil _), rfl, fun _ => id, fun _ => id⟩

theorem Booked.run (s : Session) : ∀ history : List Operation,
    Booked s (s.steps history) (s.denials history) (s.run history)
  | [] => .refl s
  | op :: rest => (Booked.of_turn (s.turn_perform op)).trans (Booked.run _ rest)

/-! ## From one request to the next -/

/-- A session that asks for a window awaits none before and one after, and has none open. -/
theorem awaited_of_asks {s : Session} {op : Operation} (asks : s.asks op = true) :
    s.awaited = 0 ∧ s.inWindow = false ∧ (s.perform op).awaited = 1 ∧ (s.perform op).inWindow = false := by
  have turn := s.turn_perform op
  unfold Session.asks at asks
  generalize s.step? op = step at turn asks
  generalize s.denies op = denies at turn
  generalize s.perform op = s' at turn
  obtain ⟨active, denied, granted⟩ := s
  cases turn with
  | asks cfg idle =>
    cases idle
    exact ⟨rfl, rfl, rfl, rfl⟩
  | starts | opens | continues | closes => cases asks
  | stays silent | denies cfg requested silent =>
    cases step with
    | none => cases asks
    | some step =>
      obtain rfl : step = .none := silent
      cases asks

/-- **What becomes of a request.**  Between a time when a window was asked for and a time when none is awaited or open
any more, if no other was asked for, one window was opened and closed, or one was denied. -/
theorem Booked.settled {s s' : Session} {steps : List WindowStep} {denials : Nat} (hb : Booked s steps denials s')
    (asked : s.awaited = 1) (shut : s.inWindow = false) (unasked : steps.countP WindowStep.isRequest = 0)
    (settled : s'.awaited = 0) (shut' : s'.inWindow = false) :
    (borders steps = [.openWindow, .closeWindow] ∧ denials = 0) ∨ (borders steps = [] ∧ denials = 1) := by
  have balance := hb.balance
  rw [asked, unasked, settled] at balance
  have bracketed := hb.bracketed
  rw [shut, shut'] at bracketed
  -- The balance leaves one window, granted or denied, and the brackets give a granted one both its borders.
  have heq := bracketed.borders_eq
  simp only [Bool.false_eq_true, if_false, List.append_nil, List.nil_append] at heq
  obtain ⟨opened, hd⟩ | ⟨opened, hd⟩ : (steps.count .openWindow = 1 ∧ denials = 0) ∨
      (steps.count .openWindow = 0 ∧ denials = 1) := by omega
  · rw [opened] at heq
    exact Or.inl ⟨heq, hd⟩
  · rw [opened] at heq
    exact Or.inr ⟨heq, hd⟩

/-- **Every request is accounted for.**  Take any history from the start: settings that are taken on or not, signals in
any order and at any times, requests that are refused at once.  With the close that is still to come the borders of the
windows are an opening and a close for each, one window after the other; a window is open just while the last border is
an opening; and what is received is received between an opening and the close that follows it.  When the history goes
on with a request, then by the next one either a window was opened and closed or one was denied, never both and never
twice.  And of all the windows asked for each was opened, was denied or is still awaited, and the counters tell how many
were opened and denied, as far as they can count. -/
theorem every_request_is_accounted_for (history : List Operation) :
    let s := fresh.run history
    let steps := fresh.steps history
    let opened := steps.count .openWindow
    let denied := fresh.denials history
    (borders steps ++ (if s.inWindow then [.closeWindow] else []) =
      (List.replicate opened [.openWindow, .closeWindow]).flatten) ∧
    (s.inWindow = true ↔ (borders steps).getLast? = some .openWindow) ∧
    (∀ before after, steps = before ++ .continueWindow :: after →
      (borders before).getLast? = some .openWindow ∧
      ∀ step, (borders after).head? = some step → step = .closeWindow) ∧
    (∀ first between second, let asked := s.perform first
      s.asks first = true → (asked.steps between).countP WindowStep.isRequest = 0 →
      (asked.run between).asks second = true →
      (borders (asked.steps between) = [.openWindow, .closeWindow] ∧ asked.denials between = 0) ∨
      (borders (asked.steps between) = [] ∧ asked.denials between = 1)) ∧
    steps.countP WindowStep.isRequest = opened + denied + (if s.phase? = some .requested then 1 else 0) ∧
    s.granted = min opened Tally.limit ∧ s.denied = min denied Tally.limit := by
  intro s steps opened denied
  have booked := Booked.run fresh history
  refine ⟨booked.bracketed.borders_eq, booked.bracketed.isOpen_iff, ?_, ?_, ?_, ?_, ?_⟩
  · intro before after hs
    have bracketed : Bracketed false steps s.inWindow := booked.bracketed
    rw [hs] at bracketed
    exact bracketed.within
  · intro first between second asked asks unasked asks'
    obtain ⟨-, -, awaited, shut⟩ := awaited_of_asks asks
    obtain ⟨settled, shut', -, -⟩ := awaited_of_asks asks'
    exact (Booked.run asked between).settled awaited shut unasked settled shut'
  · exact (Nat.zero_add _).symm.trans booked.balance
  · have granted := booked.granted 0 rfl
    rwa [Nat.zero_add] at granted
  · have denied := booked.denied 0 rfl
    rwa [Nat.zero_add] at denied

/-- A tick before the settings are right calls for nothing.  Of four requests one is refused at once, one is denied, the
third is granted and its window taken back, with late signals before and after, and the fourth is awaited. -/
theorem four_requests_are_accounted_for :
    let first : List Operation := [.configure ⟨0x8E89BED6, 0, 10, 100⟩, .signal .tick 0,
      .configure ⟨0x8E89BED6, 38, 10, 100⟩, .signal .tick 10, .windowRefused, .windowRefused, .signal .tick 20,
      .signal .denied 21, .signal .ended 22]
    let tick : Operation := .signal .tick 30
    let between : List Operation := [.signal .tick 31, .signal .started 32, .signal .radio 33, .signal .started 34,
      .signal .denied 35, .signal .ended 36]
    let s := fresh.run first
    let asked := s.perform tick
    let history := first ++ tick :: between ++ [tick]
    s.asks tick = true ∧ (asked.steps between).countP WindowStep.isRequest = 0 ∧ (asked.run between).asks tick = true ∧
    borders (asked.steps between) = [.openWindow, .closeWindow] ∧ asked.denials between = 0 ∧
    (fresh.steps history).countP WindowStep.isRequest = 4 ∧ (fresh.run history).granted = 1 ∧
    (fresh.run history).denied = 2 ∧ (fresh.run history).phase? = some .requested := by
  intro first tick between s asked history
  have asks : s.asks tick = true := by decide
  have unasked : (asked.steps between).countP WindowStep.isRequest = 0 := by decide
  have asks' : (asked.run between).asks tick = true := by decide
  obtain ⟨-, -, -, settled, -⟩ := every_request_is_accounted_for first
  obtain ⟨-, -, -, -, -, granted, denied⟩ := every_request_is_accounted_for history
  obtain ⟨opened, undenied⟩ := (settled tick between tick asks unasked asks').resolve_right (by decide)
  exact ⟨asks, unasked, asks', opened, undenied, by decide, granted.trans (by decide),
    denied.trans (by decide), by decide⟩

end Session
end ValueMesh
