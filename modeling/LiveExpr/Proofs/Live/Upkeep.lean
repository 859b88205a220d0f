import LiveExpr.Proofs.Live.Yield

/-!
A graph that is kept up to date: each of its nodes is settled, or is still to be told of a change. What
is bound, unbound and announced to it, and what changes around it, keep it so; and once there is
nothing left to be told, its results are those of a new copy.
-/

namespace LiveExpr.Live

variable {σ : Type} {h : Host σ} {read read' : String → Value → Value} {sc : Scope}
  {binds : Value → Prop} {p : Prototype} {l : Live} {stale stale' : Nat → String → Prop}
  {pending pending' : Nat → Nat → Prop}

/-- The node follows changes, and while the graph is bound there is one that it is still to be told
of: the member that it reads is `stale`, as a change of it has not been announced yet, or its
subscription, given by object and key, is `pending`. -/
def Awaits (stale : Nat → String → Prop) (pending : Nat → Nat → Prop) (l : Live) (node : Nat) : Prop :=
  ∃ member, l.observedMember? node = some member ∧
    (l.bound = true → ∃ r, l.operand node 0 = some (.object r) ∧
      (stale r.id member ∨ ∃ key, l.watchAt node = some ⟨r.id, key⟩ ∧ pending r.id key))

structure Maintained (sc : Scope) (binds : Value → Prop) (p : Prototype)
    (read : String → Value → Value) (stale : Nat → String → Prop) (pending : Nat → Nat → Prop)
    (l : Live) : Prop where
  copy : CopyOf p l
  mode : l.mode = .live
  yields : l.Yields sc binds p
  bound : l.bound = true →
    (∃ v, l.ledger.get l.parameter = some v) ∧ l.root == l.ledger.get l.body
  current : ∀ node, l.Settled read node ∨ l.Awaits stale pending node

theorem Maintained.ofAwaits (hl : l.Maintained sc binds p read stale pending)
    (hall : ∀ node, l.Awaits stale pending node → l.Awaits stale' pending' node) :
    l.Maintained sc binds p read stale' pending' :=
  { hl with current := fun node => (hl.current node).imp_right (hall node) }

theorem Maintained.mono (hl : l.Maintained sc binds p read stale pending)
    (hp : ∀ o key, pending o key → pending' o key) :
    l.Maintained sc binds p read stale pending' := by
  refine hl.ofAwaits fun node hnode => ?_
  obtain ⟨member, hm, hwait⟩ := hnode
  refine ⟨member, hm, fun hb => ?_⟩
  obtain ⟨r, hr, hs | ⟨key, hkey, hpend⟩⟩ := hwait hb
  · exact ⟨r, hr, .inl hs⟩
  · exact ⟨r, hr, .inr ⟨key, hkey, hp _ _ hpend⟩⟩

theorem Maintained.takePending (hl : l.Maintained sc binds p read stale pending) :
    l.takePending.2.Maintained sc binds p read stale pending :=
  ⟨⟨hl.copy.nodes, hl.copy.parameter, hl.copy.body, hl.copy.watches⟩, hl.mode, hl.yields, hl.bound,
    hl.current⟩

/-! ## Requests -/

theorem adopt_maintained {e : Lambda} (hp : e.compile = .ok p) {s : σ} (hs : h.Still read s)
    (hread : sc.Allows read) : (adopt h p .live s).1.Maintained sc binds p read stale pending := by
  have hfresh := adopt_fresh hp h .live s
  refine ⟨hfresh.toCopyOf, hfresh.mode, adopt_yields hp .live hs hread, fun hb => ?_, fun node => ?_⟩
  · rw [hfresh.bound] at hb
    cases hb
  · exact .inl ((adopt_settles h p .live hs).2 node)

/-- Nothing is left to be told once the graph has been bound. -/
theorem Maintained.bind {e : Lambda} (hp : e.compile = .ok p)
    (hl : l.Maintained sc binds p read stale pending) {v : Value} (hv : binds v) {s : σ}
    (hs : h.Still read s) (hread : sc.Allows read) :
    (l.bind h v s).1.Maintained sc binds p read stale' pending' := by
  obtain ⟨hcopy, hmode, -, hparam, hroot⟩ := bind_bound hp hl.copy h v s
  refine ⟨hcopy, hmode.trans hl.mode, bind_yields hp hv hs hread hl.copy hl.yields,
    fun _ => ⟨⟨v, hparam⟩, hroot⟩, fun node => ?_⟩
  rcases (bind_settles hp hl.copy v hs).2 node with hnode | ⟨hsame, -, hclean⟩
  · exact .inl hnode
  · rcases hl.current node with hnode | ⟨member, hm, -⟩
    · exact .inl ((hsame.settled (bind_graph h v l s).1).mpr hnode)
    · exact absurd (mem_bindAgenda_of_observed hm) hclean

/-- Nor while it is unbound. -/
theorem Maintained.unbind {e : Lambda} (hp : e.compile = .ok p)
    (hl : l.Maintained sc binds p read stale pending) {s : σ} (hs : h.Still read s)
    (hread : sc.Allows read) : (l.unbind h s).1.Maintained sc binds p read stale' pending' := by
  obtain ⟨hcopy, hmode, hb⟩ := unbind_unbound hl.copy h s
  have hbound : (l.unbind h s).1.bound ≠ true := by
    rw [hb]
    exact Bool.false_ne_true
  refine ⟨hcopy, hmode.trans hl.mode, unbind_yields hp hs hread hl.copy hl.yields,
    fun h => absurd h hbound, fun node => ?_⟩
  rcases (unbind_settles hp hl.copy hs).2 node with hnode | ⟨hsame, -⟩
  · exact .inl hnode
  · have hgraph : (l.unbind h s).1.graph = l.unwatched.graph := unbind_graph h l s
    rcases hl.current node with hnode | ⟨member, hm, -⟩
    · have hnode' : l.unwatched.Settled read node := hnode
      exact .inl ((hsame.settled hgraph).mpr hnode')
    · refine .inr ⟨member, ?_, fun h => absurd h hbound⟩
      rw [observedMember?_of_graph hgraph]
      exact hm

/-- Once `node` has been told, what it has subscribed is no longer pending. -/
theorem Maintained.memberChanged {e : Lambda} (hp : e.compile = .ok p)
    (hl : l.Maintained sc binds p read stale pending) {node : Nat}
    (hother : ∀ j, j ≠ node → ∀ w, l.watchAt j = some w → l.watchAt node ≠ some w) {s : σ}
    (hs : h.Still read s) (hread : sc.Allows read) :
    (l.memberChanged h node s).1.Maintained sc binds p read stale
      fun o key => pending o key ∧ l.watchAt node ≠ some ⟨o, key⟩ := by
  cases hb : l.bound with
  | false =>
      rw [memberChanged_unbound h node hb]
      refine hl.ofAwaits fun j hj => ?_
      obtain ⟨member, hm, -⟩ := hj
      refine ⟨member, hm, fun h => ?_⟩
      rw [hb] at h
      cases h
  | true =>
      have hpar := (hl.copy.kindAt_parameter hp l.parameter).mpr rfl
      have hkept := propagate_parameter h [node] hpar s
      obtain ⟨-, hframe, hall⟩ := propagate_settles [node] l hs
      have hyields := memberChanged_yields node hs hread hl.copy hl.yields
      rw [memberChanged_eq h node hb] at hyields ⊢
      simp only at hyields ⊢
      generalize l.propagate h [node] s = t at *
      have hlast := settleRoot_sameLedger t.1 (t.1.ledger.get t.1.body)
      obtain ⟨r, cs, hroot, heq⟩ := settleRoot_eq t.1 (t.1.ledger.get t.1.body)
      refine ⟨hlast.copyOf (hl.copy.ofFrame hframe), (hlast.mode.trans hframe.mode).trans hl.mode,
        hyields, fun _ => ⟨?_, ?_⟩, fun j => ?_⟩
      · obtain ⟨v, hv⟩ := (hl.bound hb).1
        refine ⟨v, ?_⟩
        rw [settleOnBody, hlast.ledger, hlast.parameter, hframe.parameter, hkept, hv]
      · rw [settleOnBody, hroot]
        exact heq
      · rcases hall j with hj | ⟨hsame, hclean⟩
        · exact .inl ((hlast.settled j).mpr hj)
        · have hsame' := hsame.trans hframe.graph (hlast.sameAt j)
          have hgraph := hlast.graph.trans hframe.graph
          rcases hl.current j with hj | ⟨member, hm, hwait⟩
          · exact .inl ((hsame'.settled hgraph).mpr hj)
          · refine .inr ⟨member, (observedMember?_of_graph hgraph j).trans hm, fun _ => ?_⟩
            obtain ⟨r, hr, hstale | ⟨key, hkey, hpend⟩⟩ := hwait hb
            · exact ⟨r, (hsame'.operand hgraph 0).trans hr, .inl hstale⟩
            · refine ⟨r, (hsame'.operand hgraph 0).trans hr, .inr ⟨key, ?_, hpend, ?_⟩⟩
              · exact hsame'.watch.trans hkey
              · exact hother j (fun hj => hclean (List.mem_singleton.mpr hj)) _ hkey

/-! ## Changes of members -/

theorem due_of_not_member (read read' : String → Value → Value) {j : Nat}
    (hk : (l.kindAt j).any (·.isMember) = false) :
    l.due read j = l.due read' j := by
  unfold due
  cases hkind : l.kindAt j with
  | none => rfl
  | some k =>
      rw [hkind] at hk
      cases k <;> simp [NodeKind.isMember] at hk <;> rfl

theorem due_of_member {j : Nat} {member reads : String} {observe : Bool}
    (hk : l.kindAt j = some (.memberAccess member reads observe)) :
    l.due read j = (Result.object? (l.operand j 0)).map (read reads) := by
  rw [due, hk]
  rfl

theorem kindAt_of_isMember {j : Nat} (hm : (l.kindAt j).any (·.isMember) = true) :
    ∃ member reads observe, l.kindAt j = some (.memberAccess member reads observe) := by
  cases hk : l.kindAt j with
  | none =>
      rw [hk] at hm
      cases hm
  | some k =>
      rw [hk] at hm
      cases k with
      | memberAccess member reads observe => exact ⟨member, reads, observe, rfl⟩
      | _ => cases hm

theorem observedMember?_of_kindAt {j : Nat} {member reads : String}
    (hk : l.kindAt j = some (.memberAccess member reads true)) : l.observedMember? j = some member := by
  obtain ⟨n, hn, hkind⟩ := Option.map_eq_some_iff.mp hk
  obtain ⟨kind, type, policy, inputs, label, source⟩ := n
  obtain rfl : kind = _ := hkind
  rw [observedMember?, hn]

theorem Yields.operand (hy : l.Yields sc binds p) (hl : CopyOf p l) {j : Nat} {v : Value}
    (hv : l.operand j 0 = some v) :
    ∃ target ∈ p.graph.inputs j, CanYield sc binds p.graph target (some v) := by
  unfold Live.operand at hv
  cases hi : (l.graph.inputs j)[0]? with
  | none =>
      rw [hi] at hv
      cases hv
  | some target =>
      rw [hi] at hv
      have htarget := hy target
      rw [show l.ledger.get target = some v from hv] at htarget
      exact ⟨target, hl.inputs j ▸ List.mem_of_getElem? hi, htarget⟩

theorem Maintained.kindAt (hl : l.Maintained sc binds p read stale pending) {j : Nat} {k : NodeKind}
    (hk : l.kindAt j = some k) : ∃ n, p.graph.nodes[j]? = some n ∧ n.kind = k := by
  rw [hl.copy.kindAt, hl.mode] at hk
  exact Option.map_eq_some_iff.mp hk

/-- A member that may have changed is one of an object that may change, and stale. -/
theorem Maintained.changed (hfollow : Followable sc binds p.graph)
    (hl : l.Maintained sc binds p read stale pending)
    (hstale : ∀ o member, stale o member → stale' o member)
    (hchange : ∀ member v, read member v == read' member v ∨
      ∃ r, (v = .object r ∨ v = .struct r) ∧ sc.changes r.id ∧ stale' r.id member) :
    l.Maintained sc binds p read' stale' pending := by
  refine { hl with current := fun node => ?_ }
  rcases hl.current node with hnode | ⟨member, hm, hwait⟩
  · cases hmember : (l.kindAt node).any (·.isMember) with
    | false =>
        rw [Settled, due_of_not_member read read' hmember] at hnode
        exact .inl hnode
    | true =>
        obtain ⟨member, reads, observe, hk⟩ := kindAt_of_isMember hmember
        rw [Settled, due_of_member hk] at hnode
        rw [Settled, due_of_member hk]
        cases htarget : Result.object? (l.operand node 0) with
        | none =>
            rw [htarget] at hnode
            exact .inl hnode
        | some v =>
            rw [htarget] at hnode
            rcases hchange reads v with hsame | ⟨r, hr, hchanges, hnew⟩
            · exact .inl (BEq.trans hnode hsame)
            · -- only a followed member can have changed
              obtain ⟨hv, -⟩ := Option.filter_eq_some_iff.mp htarget
              obtain ⟨n, hn, hnkind⟩ := hl.kindAt hk
              obtain ⟨target, hmem, hyield⟩ := hl.yields.operand hl.copy hv
              obtain ⟨hstruct, hobject⟩ := hfollow hn hnkind target hmem r hchanges
              rcases hr with rfl | rfl
              · obtain ⟨rfl, rfl⟩ := hobject hyield
                exact .inr ⟨_, observedMember?_of_kindAt hk, fun _ => ⟨r, hv, .inl hnew⟩⟩
              · exact absurd hyield hstruct
  · refine .inr ⟨member, hm, fun hb => ?_⟩
    obtain ⟨r, hr, hs | hpend⟩ := hwait hb
    · exact ⟨r, hr, .inl (hstale _ _ hs)⟩
    · exact ⟨r, hr, .inr hpend⟩

/-! ## Agreement -/

/-- With nothing left to be told, a bound graph has the results of a new copy, and evaluating once
gives that of the whole. -/
theorem Maintained.agrees {e : Lambda} (hp : e.compile = .ok p)
    (hl : l.Maintained sc binds p read (fun _ _ => False) fun _ _ => False) (hb : l.bound = true)
    {s : σ} (hs : h.Still read s) :
    ∃ v, l.ledger.get l.parameter = some v ∧
      (∀ mode id, l.ledger.get id == (adoptBound h p mode v s).1.ledger.get id) ∧
      l.root == ((adopt h p .oneTime s).1.evaluateOnce h v (adopt h p .oneTime s).2).1 := by
  obtain ⟨⟨v, hv⟩, hroot⟩ := hl.bound hb
  have hsettled : ∀ id, l.Settled read id := by
    intro id
    refine (hl.current id).resolve_right ?_
    rintro ⟨member, hm, hwait⟩
    obtain ⟨r, hr, hf | ⟨key, hkey, hf⟩⟩ := hwait hb
    · exact hf
    · exact hf
  have hequal := hl.copy.results_eq hp hv hsettled hs
  exact ⟨v, hv, hequal, hl.copy.root_eq hp hroot (hequal .oneTime)⟩

end LiveExpr.Live
