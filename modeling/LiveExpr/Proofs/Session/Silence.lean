import LiveExpr.Proofs.Live.Reports
import LiveExpr.Proofs.Session.Agreement

/-!
Worlds in which callbacks do nothing. There an announcement cannot nest: each handler of a binding
that it concerns makes one request to the graph, whose change, if there is one, is delivered before the
next handler is called.
-/

namespace LiveExpr

/-- The same graph bound to the same value. -/
structure Live.SameBinding (l l' : Live) : Prop where
  graph : l'.graph = l.graph
  parameter : l'.parameter = l.parameter
  body : l'.body = l.body
  bound : l'.bound = l.bound
  argument : l.kindAt l.parameter = some .parameter →
    l'.ledger.get l.parameter = l.ledger.get l.parameter

theorem Live.SameBinding.refl (l : Live) : SameBinding l l :=
  ⟨rfl, rfl, rfl, rfl, fun _ => rfl⟩

theorem Live.SameBinding.trans {l l' l'' : Live} (h : SameBinding l l') (h' : SameBinding l' l'') :
    SameBinding l l'' where
  graph := h'.graph.trans h.graph
  parameter := h'.parameter.trans h.parameter
  body := h'.body.trans h.body
  bound := h'.bound.trans h.bound
  argument hk := by
    have hk' : l'.kindAt l'.parameter = some .parameter := by
      rwa [kindAt_of_graph h.graph, h.parameter]
    rw [← h.argument hk, ← h.parameter]
    exact h'.argument hk'

theorem Live.memberChanged_sameBinding {σ : Type} (h : Host σ) (node : Nat) (l : Live) (s : σ) :
    SameBinding l (l.memberChanged h node s).1 := by
  cases hb : l.bound with
  | false =>
      rw [memberChanged_unbound h node hb]
      exact .refl l
  | true =>
      rw [memberChanged_eq h node hb]
      have hframe := propagate_frame h [node] l s
      have hlast := settleRoot_sameLedger (l.propagate h [node] s).1
        ((l.propagate h [node] s).1.ledger.get (l.propagate h [node] s).1.body)
      refine ⟨hlast.graph.trans hframe.graph, hlast.parameter.trans hframe.parameter,
        hlast.body.trans hframe.body, hlast.bound.trans hframe.bound, fun hk => ?_⟩
      simp only [settleOnBody]
      rw [hlast.ledger]
      exact propagate_parameter h [node] hk s

/-- The cell once it has answered a request to its graph, whose result is `l`. -/
def Cell.answered (cell : Cell) (l : Live) : Cell :=
  { cell with live := l.takePending.2, reported := cell.reported ++ l.pending }

/-- A handler that has cell `c` asked what a change means for it. -/
def Handler.asks (c : Nat) (changed : Option String) : Handler → Bool
  | .sink c' _ member => c' == c && concerns changed member
  | _ => false

namespace World

variable {w w' w'' : World} {sc : Scope} {b : Subject}

/-! ## Callbacks -/

/-- Whatever is called back does nothing. -/
def Silent (w : World) : Prop :=
  ∀ (r : Nat) (reaction : Reaction), w.reactions[r]? = some reaction → reaction.script = []

/-- The worlds differ at most in what has been recorded. -/
structure Murmurs (w w' : World) : Prop where
  objects : w'.objects = w.objects
  cells : ∀ c : Nat, w'.cells[c]? = w.cells[c]?
  exhausted : w'.exhausted = w.exhausted
  silent : w'.Silent

/-- The worlds differ at most in that the events have been recorded, observers told, and scripts started
that have nothing in them. -/
structure Recites (es : List Event) (w w' : World) : Prop where
  rest : w' = { w with
    events := w.events ++ es, reactions := w'.reactions, roster := w'.roster }
  silent : w'.Silent

theorem Recites.refl (hw : w.Silent) : Recites [] w w :=
  ⟨by rw [List.append_nil], hw⟩

theorem Recites.trans {es es' : List Event} (h : Recites es w w') (h' : Recites es' w' w'') :
    Recites (es ++ es') w w'' where
  rest := by
    rw [h'.rest, h.rest]
    simp only [List.append_assoc]
  silent := h'.silent

theorem Recites.murmurs {es : List Event} (h : Recites es w w') : Murmurs w w' := by
  have hrest := h.rest
  refine ⟨?_, fun c => ?_, ?_, h.silent⟩ <;> rw [hrest]

theorem Recites.modifyCell {es : List Event} (h : Recites es w w') (c : Nat) (f : Cell → Cell) :
    Recites es (w.modifyCell c f) (w'.modifyCell c f) := by
  refine ⟨?_, h.silent⟩
  have hrest := h.rest
  generalize w'.reactions = rs at hrest
  generalize w'.roster = entries at hrest
  subst hrest
  rfl

theorem Recites.record (hw : w.Silent) (e : Event) : Recites [e] w (w.record e) :=
  ⟨rfl, hw⟩

theorem Recites.enter (hw : w.Silent) (e : RosterEntry) : Recites [] w (w.enter e) :=
  ⟨by rw [List.append_nil]; rfl, hw⟩

theorem startScript_recites (hw : w.Silent) (d : Dispatcher) (reaction : Nat)
    (news : Option Result) : Recites [] w (w.startScript d reaction news) := by
  unfold startScript
  split
  · exact .refl hw
  · rename_i r hr
    simp only
    split
    · rw [hw reaction r hr]
      refine ⟨by simp only [List.foldl_nil, List.append_nil], fun j r' hj => ?_⟩
      obtain ⟨old, hold, hscript⟩ := script_of_started hj
      rw [← hscript]
      exact hw j old hold
    · exact .refl hw

/-- What is recorded of telling the observers of one change after the other. -/
def tidings (observers : List (Nat × Observer)) (changes : List ResultChange) : List Event :=
  changes.flatMap fun change => observers.map fun x => .change x.2.binding x.2.label change

theorem observer_recites (hw : w.Silent) (depth c id : Nat) (o : Observer) (change : ResultChange) :
    Recites [.change o.binding o.label change] w
      (dispatch (depth + 1) (.observer c id o change) w) := by
  have hentered := Recites.enter hw (.told c id o change)
  have hrecorded := hentered.trans (.record hentered.silent (.change o.binding o.label change))
  exact hrecorded.trans (startScript_recites hrecorded.silent (dispatch depth) o.reaction _)

theorem observers_recite (hw : w.Silent) (depth c : Nat) (change : ResultChange)
    (xs : List (Nat × Observer)) :
    Recites (tidings xs [change]) w
      (xs.foldl (fun w x => dispatch (depth + 1) (.observer c x.1 x.2 change) w) w) := by
  simp only [tidings, List.flatMap_cons, List.flatMap_nil, List.append_nil]
  induction xs generalizing w with
  | nil => exact .refl hw
  | cons x xs ih =>
      have hx := observer_recites hw depth c x.1 x.2 change
      exact hx.trans (ih hx.silent)

theorem Silent.modifyCell (hw : w.Silent) (c : Nat) (f : Cell → Cell) : (w.modifyCell c f).Silent :=
  hw

theorem modifyCell_congr {c : Nat} {f g : Cell → Cell}
    (h : ∀ cell : Cell, w.cells[c]? = some cell → f cell = g cell) :
    w.modifyCell c f = w.modifyCell c g := by
  have hcells : w.cells.modify c f = w.cells.modify c g := by
    refine Array.ext_getElem? fun j => ?_
    rw [Array.getElem?_modify, Array.getElem?_modify]
    split
    · subst j
      cases hc : w.cells[c]? with
      | none => rfl
      | some cell => rw [Option.map_some, Option.map_some, h cell hc]
    · rfl
  rw [World.modifyCell, World.modifyCell, hcells]

theorem modifyCell_modifyCell (c : Nat) (f g : Cell → Cell) (w : World) :
    (w.modifyCell c f).modifyCell c g = w.modifyCell c (g ∘ f) := by
  have hcells : (w.cells.modify c f).modify c g = w.cells.modify c (g ∘ f) := by
    refine Array.ext_getElem? fun j => ?_
    simp only [Array.getElem?_modify]
    split
    · rw [Option.map_map]
    · rfl
  simp only [World.modifyCell, hcells]

theorem modifyCell_eq_self {c : Nat} {f : Cell → Cell}
    (h : ∀ cell : Cell, w.cells[c]? = some cell → f cell = cell) : w.modifyCell c f = w := by
  have hcells : w.cells.modify c id = w.cells := by
    refine Array.ext_getElem? fun j => ?_
    simp [Array.getElem?_modify]
  rw [modifyCell_congr (g := id) h, World.modifyCell, hcells]

/-- An outbox with a single change is delivered without anything being added to it. -/
theorem deliver_recites (hw : w.Silent) (depth : Nat) {c : Nat} {cell : Cell}
    (hc : w.cells[c]? = some cell) (hone : cell.outbox.length ≤ 1) :
    Recites (tidings cell.observers cell.outbox) (w.modifyCell c ({ · with outbox := [] }))
      (dispatch (depth + 2) (.deliver c) w) := by
  change Recites _ _ (w.deliver (dispatch (depth + 1)) c)
  unfold deliver
  simp only [hc]
  split
  · rename_i hempty
    rw [hempty, modifyCell_eq_self fun cell' hc' => by cases hc.symm.trans hc'; rw [← hempty]]
    exact .refl hw
  · rename_i change rest hout
    obtain rfl : rest = [] := by simpa [hout] using hone
    have hopened := Recites.enter (hw.modifyCell c ({ · with outbox := [] })) (.opened c change)
    have hobserved := hopened.trans (observers_recite hopened.silent depth c change cell.observers)
    have hcell := (hobserved.murmurs.cells c).trans (cells_modifyCell hc _)
    generalize cell.observers.foldl (fun w x => dispatch (depth + 1) (.observer c x.1 x.2 change) w)
      ((w.modifyCell c ({ · with outbox := [] })).enter (.opened c change)) = u at hobserved hcell ⊢
    have hlast : dispatch (depth + 1) (.deliver c) u = u := by
      change u.deliver (dispatch depth) c = u
      simp only [deliver, hcell]
    rw [hlast, hout]
    exact hobserved

theorem flush_recites (hw : w.Silent) (depth : Nat) {c : Nat} {cell : Cell}
    (hc : w.cells[c]? = some cell) (hdel : cell.delivering = false) (hone : cell.outbox.length ≤ 1) :
    Recites (tidings cell.observers cell.outbox) (w.modifyCell c ({ · with outbox := [] }))
      (w.flush (dispatch (depth + 2)) c) := by
  have hdelivered := deliver_recites (hw.modifyCell c ({ · with delivering := true })) depth
    (cells_modifyCell hc _) hone
  have hdone := hdelivered.modifyCell c ({ · with delivering := false })
  rw [modifyCell_modifyCell, modifyCell_modifyCell] at hdone
  unfold flush
  simp only [hc, hdel, Bool.false_eq_true, if_false]
  rw [modifyCell_congr fun cell' hc' => ?_]
  · exact hdone
  · cases hc.symm.trans hc'
    simp only [Function.comp_apply, hdel]

/-! ## Ripples -/

/-- Nothing is being delivered or waits to be. -/
def Rested (w : World) : Prop :=
  ∀ (c : Nat) (cell : Cell), w.cells[c]? = some cell →
    cell.delivering = false ∧ cell.outbox = [] ∧ cell.live.pending = []

/-- At most `n` changes are reported of cell `c`, which otherwise only goes on following. -/
structure Ripples (c n : Nat) (w w' : World) : Prop where
  heap : SameHeap w w'
  silent : w'.Silent
  rested : w'.Rested
  exhausted : w'.exhausted = w.exhausted
  cell : ∀ cell : Cell, w.cells[c]? = some cell → ∃ cell' new, w'.cells[c]? = some cell' ∧
    cell'.observers = cell.observers ∧ Live.SameBinding cell.live cell'.live ∧
    cell'.reported = cell.reported ++ new ∧ new.length ≤ n

theorem Ripples.refl {c : Nat} (hw : w.Silent) (hr : w.Rested) : Ripples c 0 w w :=
  ⟨.refl w, hw, hr, rfl, fun cell hc => ⟨cell, [], hc, rfl, .refl _, by simp, Nat.le_refl _⟩⟩

theorem Ripples.mono {c n n' : Nat} (h : Ripples c n w w') (hn : n ≤ n') : Ripples c n' w w' :=
  { h with
    cell := fun cell hc => by
      obtain ⟨cell', new, hc', hobservers, hlive, hreported, hlength⟩ := h.cell cell hc
      exact ⟨cell', new, hc', hobservers, hlive, hreported, Nat.le_trans hlength hn⟩ }

theorem Ripples.trans {c n n' : Nat} (h : Ripples c n w w') (h' : Ripples c n' w' w'') :
    Ripples c (n + n') w w'' where
  heap := h.heap.trans h'.heap
  silent := h'.silent
  rested := h'.rested
  exhausted := h'.exhausted.trans h.exhausted
  cell cell hc := by
    obtain ⟨cell', new, hc', hobservers, hlive, hreported, hlength⟩ := h.cell cell hc
    obtain ⟨cell'', new', hc'', hobservers', hlive', hreported', hlength'⟩ := h'.cell cell' hc'
    refine ⟨cell'', new ++ new', hc'', hobservers'.trans hobservers, hlive.trans hlive', ?_, ?_⟩
    · rw [hreported', hreported, List.append_assoc]
    · rw [List.length_append]
      omega

theorem Murmurs.ripples {c : Nat} (h : Murmurs w w') (hr : w.Rested) : Ripples c 0 w w' where
  heap := .ofObjects h.objects
  silent := h.silent
  rested j cell hc := hr j cell (h.cells j ▸ hc)
  exhausted := h.exhausted
  cell cell hc := ⟨cell, [], (h.cells c).trans hc, rfl, .refl _, by simp, Nat.le_refl _⟩

/-- Cell `c` has answered a request, and what it had to report has been delivered. -/
structure Answers (c : Nat) (l : Live) (w w' : World) : Prop where
  heap : SameHeap w w'
  silent : w'.Silent
  exhausted : w'.exhausted = w.exhausted
  cells : ∀ j : Nat, w'.cells[j]? = (w.modifyCell c (Cell.answered · l)).cells[j]?

/-- What a settled graph has to report is delivered at once. -/
theorem flush_served (hw : w.Silent) (depth : Nat) {c : Nat} {cell : Cell}
    (hc : w.cells[c]? = some cell) (hdel : cell.delivering = false) (hout : cell.outbox = [])
    {l : Live} (hone : l.pending.length ≤ 1) :
    Recites (tidings cell.observers l.pending)
      (w.modifyCell c fun cell => { cell.answered l with busy := false, outbox := [] })
      ((w.modifyCell c (Cell.served · l)).flush (dispatch (depth + 2)) c) := by
  have houtbox : (Cell.served cell l).outbox = l.pending := by
    simp [Cell.served, hout, Live.takePending]
  have hflushed := flush_recites (hw.modifyCell c (Cell.served · l)) depth
    (cells_modifyCell hc (Cell.served · l)) hdel (houtbox ▸ hone)
  rwa [houtbox, modifyCell_modifyCell] at hflushed

/-- The world that a request to cell `c` finds. -/
def entered (c : Nat) (w : World) : World :=
  (w.modifyCell c fun cell => { cell with activations := cell.activations + 1 }).engaged c

/-- Cell `c` has answered a request and has left the objects as they are in `u`; the events `es` have
been recorded. -/
structure Concludes (c : Nat) (l : Live) (u : World) (es : List Event) (w w' : World) : Prop where
  rest : w' = { w.modifyCell c (Cell.answered · l) with
    objects := u.objects
    log := u.log
    events := w.events ++ es
    reactions := w'.reactions
    roster := w'.roster }
  silent : w'.Silent

theorem request_concludes (hw : w.Orderly sc) (hs : w.Silent) (hr : w.Rested) (depth : Nat) {c : Nat}
    {cell : Cell} (hc : w.cells[c]? = some cell) (r : Request) {op : Live → World → Live × World}
    (hop : Confined c op) (hone : (op cell.live (w.entered c)).1.pending.length ≤ 1) :
    let t := op cell.live (w.entered c)
    Concludes c t.1 t.2 (tidings cell.observers t.1.pending) w
        (w.request (dispatch (depth + 2)) c r op) ∧
      Resubscribed (.sink c) (w.entered c) t.2 := by
  obtain ⟨hbusy, howned, ht⟩ := hw.cells c cell hc
  obtain ⟨hdel, hout, -⟩ := hr c cell hc
  have hentered : (w.entered c).cells[c]? = some { cell with
      activations := cell.activations + 1
      busy := true } := cells_modifyCell (cells_modifyCell hc _) _
  obtain ⟨-, hresub⟩ := hop (ht.ofObjects rfl : (w.entered c).Tends c cell.live)
  let start := w.modifyCell c fun cell => { cell with activations := cell.activations + 1 }
  have hrequest : w.request (dispatch (depth + 2)) c r op =
      (((start.propagating c op cell.live).flush (dispatch (depth + 2)) c).modifyCell c fun cell =>
        { cell with activations := cell.activations - 1 }).bury (dispatch (depth + 2)) c := by
    simp only [request, activate, hc, hbusy, Bool.false_eq_true, if_false, start]
  rw [hrequest, propagating_eq, show start.engaged c = w.entered c from rfl]
  generalize op cell.live (w.entered c) = t at *
  obtain ⟨l, u⟩ := t
  have hrest : u = { w.entered c with objects := u.objects, log := u.log } := hresub.rest
  have hown : u.cells[c]? = some { cell with activations := cell.activations + 1, busy := true } := by
    rw [hrest]
    exact hentered
  have hsilent : u.Silent := by
    rw [hrest]
    exact hs
  -- the flags of the cell are set on entering and cleared on leaving, so only the answer remains
  let settled : Cell → Cell := fun cell => { cell.answered l with busy := false, outbox := [] }
  let leave : Cell → Cell := fun cell => { cell with activations := cell.activations - 1 }
  have hdone := (flush_served hsilent depth hown hdel hout hone).modifyCell c leave
  rw [modifyCell_modifyCell] at hdone
  have hlast := (hdone.murmurs.cells c).trans (cells_modifyCell hown _)
  rw [bury_of_owned fun cell' hc' => by cases hlast.symm.trans hc'; exact howned]
  refine ⟨⟨?_, hdone.silent⟩, hresub⟩
  have hcells : (w.entered c).modifyCell c (leave ∘ settled) =
      w.modifyCell c (Cell.answered · l) := by
    rw [entered, engaged, modifyCell_modifyCell, modifyCell_modifyCell]
    refine modifyCell_congr fun cell' hc' => ?_
    cases hc.symm.trans hc'
    simp [leave, settled, Cell.answered, hbusy, hout]
  have hmodified : u.modifyCell c (leave ∘ settled) =
      { w.modifyCell c (Cell.answered · l) with objects := u.objects, log := u.log } := by
    rw [← hcells]
    generalize u.objects = objects, u.log = log at hrest
    rw [hrest]
    rfl
  rw [hmodified] at hdone
  exact hdone.rest

theorem Concludes.answers {c : Nat} {l : Live} {u : World} {es : List Event}
    (h : Concludes c l u es w w') (hresub : Resubscribed (.sink c) (w.entered c) u) :
    Answers c l w w' := by
  have hrest := h.rest
  have hheap : SameHeap w (w.entered c) := .ofObjects rfl
  refine ⟨hheap.trans (hresub.heap.trans (.ofObjects ?_)), h.silent, ?_, fun j => ?_⟩
  all_goals rw [hrest]
  rfl

theorem request_answers (hw : w.Orderly sc) (hs : w.Silent) (hr : w.Rested) (depth : Nat) {c : Nat}
    {cell : Cell} (hc : w.cells[c]? = some cell) (r : Request) {op : Live → World → Live × World}
    (hop : Confined c op) (hone : ∀ u, (op cell.live u).1.pending.length ≤ 1) :
    ∃ u, Answers c (op cell.live u).1 w (w.request (dispatch (depth + 2)) c r op) := by
  obtain ⟨hdone, hresub⟩ := request_concludes hw hs hr depth hc r hop (hone _)
  exact ⟨_, hdone.answers hresub⟩

theorem memberChanged_answers (hw : w.Orderly sc) (hs : w.Silent) (hr : w.Rested) (depth c node : Nat)
    {cell : Cell} (hc : w.cells[c]? = some cell) :
    ∃ l, Live.SameBinding cell.live l ∧ l.pending.length ≤ 1 ∧
      Answers c l w (w.memberChanged (dispatch (depth + 2)) c node) := by
  obtain ⟨-, -, hpend⟩ := hr c cell hc
  have hone : ∀ u,
      (cell.live.memberChanged (cellHost (dispatch (depth + 2)) c) node u).1.pending.length ≤ 1 := by
    intro u
    obtain ⟨changes, hreports⟩ := Live.memberChanged_reports _ node cell.live u
    rw [hreports.pending, hpend]
    exact hreports.length
  obtain ⟨u, hanswers⟩ := request_answers hw hs hr depth hc .memberNotification
    (confined_memberChanged (dispatch (depth + 2)) c node) hone
  exact ⟨_, Live.memberChanged_sameBinding _ node cell.live u, hone u, hanswers⟩

theorem Answers.cell_of_ne {c j : Nat} {l : Live} (h : Answers c l w w') (hj : c ≠ j) :
    w'.cells[j]? = w.cells[j]? :=
  (h.cells j).trans (cells_modifyCell_of_ne hj _)

theorem Answers.own {c : Nat} {l : Live} {cell : Cell} (h : Answers c l w w')
    (hc : w.cells[c]? = some cell) : w'.cells[c]? = some (cell.answered l) :=
  (h.cells c).trans (cells_modifyCell hc _)

theorem Answers.rested {c : Nat} {l : Live} {cell : Cell} (h : Answers c l w w')
    (hc : w.cells[c]? = some cell) (hr : w.Rested) : w'.Rested := by
  intro j cell' hc'
  by_cases hj : c = j
  · subst j
    cases (h.own hc).symm.trans hc'
    obtain ⟨hdel, hout, -⟩ := hr c cell hc
    exact ⟨hdel, hout, rfl⟩
  · rw [h.cell_of_ne hj] at hc'
    exact hr j cell' hc'

/-! ## Announcing -/

theorem memberChanged_ripples (hw : w.Orderly sc) (hs : w.Silent) (hr : w.Rested)
    (depth c c' node : Nat) :
    Ripples c (if c' = c then 1 else 0) w (w.memberChanged (dispatch (depth + 2)) c' node) := by
  cases hc : w.cells[c']? with
  | none =>
      have hnothing : w.memberChanged (dispatch (depth + 2)) c' node = w := by
        simp only [memberChanged, request, hc]
      rw [hnothing]
      exact (Ripples.refl hs hr).mono (Nat.zero_le _)
  | some cell =>
      obtain ⟨l, hsame, hone, hanswers⟩ := memberChanged_answers hw hs hr depth c' node hc
      refine ⟨hanswers.heap, hanswers.silent, hanswers.rested hc hr, hanswers.exhausted,
        fun own hown => ?_⟩
      by_cases hself : c' = c
      · subst c'
        cases hc.symm.trans hown
        rw [if_pos rfl]
        have htaken : Live.SameBinding cell.live l.takePending.2 :=
          ⟨hsame.graph, hsame.parameter, hsame.body, hsame.bound, hsame.argument⟩
        exact ⟨_, l.pending, hanswers.own hc, rfl, htaken, rfl, hone⟩
      · rw [hanswers.cell_of_ne hself]
        exact ⟨own, [], hown, rfl, .refl _, by simp, Nat.zero_le _⟩

theorem handler_ripples (hw : w.Orderly sc) (hs : w.Silent) (hr : w.Rested) (depth c : Nat)
    (changed : Option String) (h : Handler) :
    Ripples c (if h.asks c changed then 1 else 0) w
      (dispatch (depth + 3) (.handler h changed) w) := by
  change Ripples c _ w (w.handle (dispatch (depth + 2)) changed h)
  cases h with
  | sink c' node member =>
      rw [handle]
      by_cases hconcerns : concerns changed member = true
      · simpa [Handler.asks, hconcerns] using memberChanged_ripples hw hs hr depth c c' node
      · simpa [Handler.asks, hconcerns] using Ripples.refl hs hr
  | recorder node member =>
      have hnoted : Murmurs w { w with notified := w.notified ++ [node] } :=
        ⟨rfl, fun _ => rfl, rfl, hs⟩
      rw [handle]
      by_cases hconcerns : concerns changed member = true
      · rw [if_pos hconcerns]
        exact hnoted.ripples hr
      · rw [if_neg hconcerns]
        exact .refl hs hr
  | deaf => exact .refl hs hr
  | reaction r =>
      have hrecorded := Recites.record hs (.notified ((w.reactions[r]?).elim "" (·.label)) changed)
      have hstarted := startScript_recites hrecorded.silent (dispatch (depth + 2)) r none
      exact (hrecorded.trans hstarted).murmurs.ripples hr

/-- Each handler of the cell that is called, and there are no others than those at the start, makes
for at most one change. -/
theorem turns_ripple (hw : w.Orderly b.scope) (hs : w.Silent) (hr : w.Rested) (depth c object : Nat)
    (changed : Option String) (xs : List (Nat × Handler)) :
    Ripples c (xs.countP (·.2.asks c changed)) w
      (xs.foldl (fun w x => if (w.notifier object).holds x.1 then
        dispatch (depth + 3) (.handler x.2 changed) w else w) w) := by
  induction xs generalizing w with
  | nil => exact .refl hs hr
  | cons x xs ih =>
      rw [List.foldl_cons, List.countP_cons, Nat.add_comm]
      by_cases hholds : (w.notifier object).holds x.1 = true
      · have hturn := handler_ripples hw hs hr depth c changed x.2
        have hafter := ((dispatch_obeys b (depth + 3)).call (.handler x.2 changed) hw).orderly
        rw [if_pos hholds]
        exact hturn.trans (ih hafter hturn.silent hturn.rested)
      · rw [if_neg hholds]
        exact (ih hw hs hr).mono (Nat.le_add_left _ _)

theorem announce_ripples (hw : w.Orderly b.scope) (hs : w.Silent) (hr : w.Rested)
    (depth c object : Nat) (changed : Option String) :
    Ripples c ((w.notifier object).handlers.countP (·.2.asks c changed))
      (w.modifyObject object (·.announced changed))
      (w.announce (dispatch (depth + 3)) object changed) := by
  have hannounced := announced_evolves hw object changed
  have hturns := turns_ripple hannounced.orderly hs hr depth c object changed
    (w.notifier object).handlers
  unfold announce Notifier.dispatch
  simp only
  rwa [notifier_announced]

end World

end LiveExpr
