import LiveExpr.Cache
import Mathlib.Data.Set.Card

/-!
A cache is written once for each key, however deep the builds nest that ask it again. A run is told by
how its requests end, one after the other: from this the cache can be read off at every moment, and
with it what every request is answered. Which requests a build makes, and how it ends, may depend on what
the cache has answered it; a tree of requests has what it did in one run.
-/

namespace LiveExpr

/-- How a request ends: with what the cache had, with a build that succeeded and what is handed out
for it, or with a build that failed. -/
inductive Ending (κ ν ε : Type)
  | found (key : κ) (v : ν)
  | built (key : κ) (v answer : ν)
  | failed (key : κ) (e : ε)

namespace Ending

variable {κ ν ε : Type}

def key : Ending κ ν ε → κ
  | found key _ | built key .. | failed key _ => key

def reply : Ending κ ν ε → Except ε ν
  | found _ v => .ok v
  | built _ _ answer => .ok answer
  | failed _ e => .error e

def built? : Ending κ ν ε → Option (κ × ν)
  | built key v _ => some (key, v)
  | found .. | failed .. => none

/-- The builds that succeeded, oldest first, also those whose result came too late. -/
def builds (es : List (Ending κ ν ε)) : List (κ × ν) :=
  es.filterMap built?

theorem builds_append (es es' : List (Ending κ ν ε)) : builds (es ++ es') = builds es ++ builds es' :=
  List.filterMap_append

theorem builds_nil : builds ([] : List (Ending κ ν ε)) = [] :=
  rfl

theorem builds_cons (e : Ending κ ν ε) (es : List (Ending κ ν ε)) :
    builds (e :: es) = e.built?.toList ++ builds es := by
  cases e <;> rfl

end Ending

open Ending (builds builds_append builds_cons)

/-! ## What successful builds leave in a cache -/

namespace Cache

variable {κ ν ε : Type} [BEq κ] {c c' c'' : Cache κ ν} {bs : List (κ × ν)}
  {es es' : List (Ending κ ν ε)}

/-- Of each key the cache has the first of the builds, which are given oldest first. -/
structure Records (c : Cache κ ν) (bs : List (κ × ν)) : Prop where
  lookup : ∀ key, c.lookup key = bs.lookup key
  nodup : (c.entries.map (·.1)).Nodup
  builds : c.builds = bs.length

namespace Records

theorem empty : (empty : Cache κ ν).Records [] :=
  ⟨fun _ => rfl, .nil, rfl⟩

variable [LawfulBEq κ]

theorem mem_keys (h : c.Records bs) {key : κ} :
    key ∈ c.entries.map (·.1) ↔ key ∈ bs.map (·.1) := by
  have hkey (l : List (κ × ν)) : key ∈ l.map (·.1) ↔ (l.lookup key).isSome := by
    rw [List.lookup_isSome_iff, List.mem_map]
    simp only [beq_iff_eq, @eq_comm κ key]
  rw [hkey, hkey, ← h.lookup, Cache.lookup]

theorem size (h : c.Records bs) : c.size = {key | ∃ v, (key, v) ∈ bs}.ncard := by
  classical
  -- the entries have each key once, the builds perhaps more often
  have hkeys : {key | ∃ v, (key, v) ∈ bs} = ((c.entries.map (·.1)).toFinset : Set κ) := by
    ext key
    rw [Finset.mem_coe, List.mem_toFinset, h.mem_keys, List.mem_map]
    exact ⟨fun ⟨v, hv⟩ => ⟨_, hv, rfl⟩, fun ⟨x, hx, hkey⟩ => ⟨x.2, hkey ▸ hx⟩⟩
  rw [hkeys, Set.ncard_coe_finset, List.toFinset_card_of_nodup h.nodup, List.length_map]
  rfl

theorem size_le_builds (h : c.Records bs) : c.size ≤ c.builds := by
  have hle := (h.nodup.subperm fun key hkey => h.mem_keys.mp hkey).length_le
  rwa [List.length_map, List.length_map, ← h.builds] at hle

theorem answer (h : c.Records bs) (key : κ) (v : ν) :
    (bs ++ [(key, v)]).lookup key = some (c.store key v).1 := by
  rw [List.lookup_append, ← h.lookup, Cache.store]
  cases c.lookup key <;> simp

theorem store (h : c.Records bs) (key : κ) (v : ν) :
    (c.store key v).2.Records (bs ++ [(key, v)]) := by
  have hbuilds : c.builds + 1 = (bs ++ [(key, v)]).length := by
    rw [List.length_append, h.builds, List.length_singleton]
  rw [Cache.store]
  cases hc : c.lookup key with
  | some first =>
      refine ⟨fun k => ?_, h.nodup, hbuilds⟩
      change c.lookup k = _
      rw [List.lookup_append, ← h.lookup, List.lookup_cons]
      by_cases hk : k = key
      · rw [hk, hc, Option.some_or]
      · rw [beq_false_of_ne hk, List.lookup_nil, Option.or_none]
  | none =>
      refine ⟨fun k => ?_, ?_, hbuilds⟩
      · change ((key, v) :: c.entries).lookup k = _
        rw [List.lookup_append, ← h.lookup, List.lookup_cons, List.lookup_cons]
        by_cases hk : k = key
        · rw [hk, hc, beq_self_eq_true, Option.none_or]
        · rw [beq_false_of_ne hk, List.lookup_nil, Option.or_none]
          rfl
      · refine List.nodup_cons.mpr ⟨fun hmem => ?_, h.nodup⟩
        obtain ⟨x, hx, rfl⟩ := List.mem_map.mp hmem
        exact absurd (List.lookup_eq_none_iff.mp hc x hx) (by simp)

end Records

/-! ## Requests ending one after the other -/

/-- Only a build that succeeds does anything to the cache. -/
def after (c : Cache κ ν) : Ending κ ν ε → Cache κ ν
  | .built key v _ => (c.store key v).2
  | .found .. | .failed .. => c

def replay (c : Cache κ ν) (es : List (Ending κ ν ε)) : Cache κ ν :=
  es.foldl after c

theorem after_of_error {e : Ending κ ν ε} {err : ε} (h : e.reply = .error err) : c.after e = c := by
  cases e with
  | built => cases h
  | found | failed => rfl

theorem replay_append (c : Cache κ ν) (es es' : List (Ending κ ν ε)) :
    c.replay (es ++ es') = (c.replay es).replay es' :=
  List.foldl_append

/-- What has become of an empty cache. -/
def ofEndings (es : List (Ending κ ν ε)) : Cache κ ν :=
  empty.replay es

/-- How a request may end when the cache is as it is. -/
def Allows (c : Cache κ ν) : Ending κ ν ε → Prop
  | .found key v => c.lookup key = some v
  | .built key v answer => answer = (c.store key v).1
  | .failed .. => True

/-- Each request ends as the cache allows that those before it have left. -/
inductive Unfolds : Cache κ ν → List (Ending κ ν ε) → Cache κ ν → Prop
  | nil (c : Cache κ ν) : Unfolds c [] c
  | cons {c c' : Cache κ ν} {e : Ending κ ν ε} {es : List (Ending κ ν ε)} :
      c.Allows e → Unfolds (c.after e) es c' → Unfolds c (e :: es) c'

namespace Unfolds

theorem append (h : Unfolds c es c') (h' : Unfolds c' es' c'') : Unfolds c (es ++ es') c'' := by
  induction h with
  | nil => exact h'
  | cons he _ ih => exact .cons he (ih h')

theorem eq_replay (h : Unfolds c es c') : c' = c.replay es := by
  induction h with
  | nil => rfl
  | cons _ _ ih => exact ih

theorem allows {before after : List (Ending κ ν ε)} {e : Ending κ ν ε}
    (h : Unfolds c (before ++ e :: after) c') : (c.replay before).Allows e := by
  induction before generalizing c with
  | nil =>
      cases h with
      | cons he _ => exact he
  | cons d before ih =>
      cases h with
      | cons _ hrest => exact ih hrest

end Unfolds

variable [LawfulBEq κ]

theorem Records.after (h : c.Records bs) (e : Ending κ ν ε) :
    (c.after e).Records (bs ++ e.built?.toList) := by
  cases e with
  | built key v answer => exact h.store key v
  | found | failed => exact (List.append_nil bs).symm ▸ h

theorem Records.replay (h : c.Records bs) (es : List (Ending κ ν ε)) :
    (c.replay es).Records (bs ++ Ending.builds es) := by
  induction es generalizing c bs with
  | nil => exact (List.append_nil bs).symm ▸ h
  | cons e es ih =>
      rw [builds_cons, ← List.append_assoc]
      exact ih (h.after e)

theorem records_ofEndings (es : List (Ending κ ν ε)) : (ofEndings es).Records (Ending.builds es) :=
  Records.empty.replay es

/-- What a request is answered is what was first built for its key. -/
theorem Records.reply (h : c.Records bs) {e : Ending κ ν ε} (he : c.Allows e) {v : ν}
    (hv : e.reply = .ok v) : (bs ++ e.built?.toList).lookup e.key = some v := by
  cases e with
  | found key hit =>
      obtain rfl := Except.ok.inj hv
      exact (List.append_nil bs).symm ▸ (h.lookup key).symm.trans he
  | built key built answer =>
      obtain rfl := Except.ok.inj hv
      obtain rfl : _ = _ := he
      exact h.answer key built
  | failed => cases hv

end Cache

/-! ## The endings of a run -/

namespace CacheRequest

variable {κ ν ε : Type} [BEq κ]

def key : CacheRequest κ ν ε → κ
  | mk key .. => key

def outcome : CacheRequest κ ν ε → Except ε ν
  | mk _ outcome _ => outcome

def nested : CacheRequest κ ν ε → List (CacheRequest κ ν ε)
  | mk _ _ nested => nested

def ending (r : CacheRequest κ ν ε) (c : Cache κ ν) : Ending κ ν ε :=
  match c.lookup r.key with
  | some hit => .found r.key hit
  | none =>
    match r.outcome with
    | .ok v => .built r.key v ((runAll r.nested c).store r.key v).1
    | .error e => .failed r.key e

mutual

/-- A request that is answered from the cache does not make those nested in its build. -/
def endings : CacheRequest κ ν ε → Cache κ ν → List (Ending κ ν ε)
  | mk key outcome nested, c =>
    (if (c.lookup key).isSome then [] else endingsAll nested c) ++ [(mk key outcome nested).ending c]

def endingsAll : List (CacheRequest κ ν ε) → Cache κ ν → List (Ending κ ν ε)
  | [], _ => []
  | r :: rest, c => r.endings c ++ endingsAll rest (r.run c).2

end

/-- In the course of `rs`, run from the first cache, the request is made when the cache is the second.
-/
inductive MadeAt : List (CacheRequest κ ν ε) → Cache κ ν → CacheRequest κ ν ε → Cache κ ν → Prop
  | first {r : CacheRequest κ ν ε} {rest : List (CacheRequest κ ν ε)} {c : Cache κ ν} :
      MadeAt (r :: rest) c r c
  | later {r r' : CacheRequest κ ν ε} {rest : List (CacheRequest κ ν ε)} {c c' : Cache κ ν} :
      MadeAt rest (r.run c).2 r' c' → MadeAt (r :: rest) c r' c'
  | nested {r r' : CacheRequest κ ν ε} {rest : List (CacheRequest κ ν ε)} {c c' : Cache κ ν} :
      c.lookup r.key = none → MadeAt r.nested c r' c' → MadeAt (r :: rest) c r' c'

variable {r : CacheRequest κ ν ε} {rs : List (CacheRequest κ ν ε)} {c c' : Cache κ ν}
  {e : Ending κ ν ε}

theorem endings_eq (r : CacheRequest κ ν ε) (c : Cache κ ν) :
    r.endings c = (if (c.lookup r.key).isSome then [] else endingsAll r.nested c) ++ [r.ending c] := by
  cases r
  rw [endings]
  rfl

@[simp] theorem key_ending (r : CacheRequest κ ν ε) (c : Cache κ ν) : (r.ending c).key = r.key := by
  unfold ending
  split
  · rfl
  · split <;> rfl

theorem of_ending_built {key : κ} {v : ν} (h : (r.ending c).built? = some (key, v)) :
    r.key = key ∧ r.outcome = .ok v := by
  unfold ending at h
  split at h
  · cases h
  · split at h
    · rename_i hv
      cases h
      exact ⟨rfl, hv⟩
    · cases h

theorem of_ending_error {err : ε} (h : (r.ending c).reply = .error err) :
    r.outcome = .error err := by
  unfold ending at h
  split at h
  · cases h
  · split at h
    · cases h
    · rename_i he
      cases h
      exact he

-- By induction on the tree of requests: what is nested leads to the cache in which the own build ends.
mutual

theorem endings_lead : (r : CacheRequest κ ν ε) → (c : Cache κ ν) →
    c.Unfolds (r.endings c) (r.run c).2 ∧ (r.run c).1 = (r.ending c).reply
  | mk key outcome nested, c => by
      have hnested := endingsAll_lead nested c
      rw [endings_eq]
      cases hc : c.lookup key with
      | some hit =>
          simp only [ending, CacheRequest.key, run, Cache.getOrTryBuild, hc, Option.isSome_some]
          exact ⟨.cons hc (.nil c), rfl⟩
      | none =>
          simp only [ending, CacheRequest.key, CacheRequest.outcome, CacheRequest.nested, run,
            Cache.getOrTryBuild, hc, Option.isSome_none]
          cases outcome with
          | error e => exact ⟨hnested.append (.cons trivial (.nil _)), rfl⟩
          | ok v => exact ⟨hnested.append (.cons rfl (.nil _)), rfl⟩

theorem endingsAll_lead : (rs : List (CacheRequest κ ν ε)) → (c : Cache κ ν) →
    c.Unfolds (endingsAll rs c) (runAll rs c)
  | [], c => .nil c
  | r :: rest, c => by
      rw [endingsAll, runAll]
      exact (endings_lead r c).1.append (endingsAll_lead rest _)

end

theorem run_eq (r : CacheRequest κ ν ε) (c : Cache κ ν) :
    r.run c = ((r.ending c).reply, c.replay (r.endings c)) :=
  Prod.ext (endings_lead r c).2 (endings_lead r c).1.eq_replay

/-- Where the endings of a request stand among those of the whole run. -/
theorem MadeAt.endings (h : MadeAt rs c r c') :
    ∃ before after, endingsAll rs c = before ++ r.endings c' ++ after ∧ c' = c.replay before := by
  induction h with
  | @first r rest c => exact ⟨[], endingsAll rest (r.run c).2, by rw [endingsAll]; rfl, rfl⟩
  | @later r r' rest c c' _ ih =>
      obtain ⟨before, after, hlog, hc'⟩ := ih
      refine ⟨r.endings c ++ before, after, ?_, ?_⟩
      · rw [endingsAll, hlog]
        simp only [List.append_assoc]
      · rw [Cache.replay_append, hc', run_eq r c]
  | @nested r r' rest c c' hmiss _ ih =>
      obtain ⟨before, after, hlog, hc'⟩ := ih
      refine ⟨before, after ++ [r.ending c] ++ endingsAll rest (r.run c).2, ?_, hc'⟩
      rw [endingsAll, endings_eq, hmiss, hlog]
      simp [List.append_assoc]

theorem MadeAt.weaken (h : MadeAt [r] c r' c') (rest : List (CacheRequest κ ν ε)) :
    MadeAt (r :: rest) c r' c' := by
  cases h with
  | first => exact .first
  | later h => cases h
  | nested hmiss h => exact .nested hmiss h

mutual

theorem mem_endings : (r : CacheRequest κ ν ε) → (c : Cache κ ν) → e ∈ r.endings c →
    ∃ r' c', MadeAt [r] c r' c' ∧ e = r'.ending c'
  | mk key outcome nested, c, he => by
      rw [endings_eq] at he
      rcases List.mem_append.mp he with he | he
      · split at he
        · cases he
        · rename_i hmiss
          obtain ⟨r', c', hmakes, rfl⟩ := mem_endingsAll nested c he
          exact ⟨r', c', .nested (Option.not_isSome_iff_eq_none.mp hmiss) hmakes, rfl⟩
      · exact ⟨_, c, .first, List.mem_singleton.mp he⟩

/-- Every ending is that of a request that is made. -/
theorem mem_endingsAll : (rs : List (CacheRequest κ ν ε)) → (c : Cache κ ν) → e ∈ endingsAll rs c →
    ∃ r c', MadeAt rs c r c' ∧ e = r.ending c'
  | r :: rest, c, he => by
      rw [endingsAll] at he
      rcases List.mem_append.mp he with he | he
      · obtain ⟨r', c', hmakes, rfl⟩ := mem_endings r c he
        exact ⟨r', c', hmakes.weaken rest, rfl⟩
      · obtain ⟨r', c', hmakes, rfl⟩ := mem_endingsAll rest _ he
        exact ⟨r', c', .later hmakes, rfl⟩

end

/-! ## Every request of a run -/

theorem endings_snoc (r : CacheRequest κ ν ε) (c : Cache κ ν) :
    ∃ own, r.endings c = own ++ [r.ending c] :=
  ⟨_, endings_eq r c⟩

theorem run_of_failing {key : κ} {err : ε} {nested : List (CacheRequest κ ν ε)}
    (hmiss : c.lookup key = none) :
    (mk key (.error err) nested).run c = (.error err, runAll nested c) := by
  rw [run, Cache.getOrTryBuild, hmiss]

/-- A request whose build succeeds may as well be made with a build that cannot fail. -/
theorem run_of_succeeding (key : κ) (v : ν) (nested : List (CacheRequest κ ν ε)) (c : Cache κ ν) :
    (mk key (.ok v) nested).run c =
      (.ok (c.getOrBuild key fun c => (v, runAll nested c)).1,
        (c.getOrBuild key fun c => (v, runAll nested c)).2) := by
  rw [run, Cache.getOrBuild, Cache.getOrTryBuild, Cache.getOrTryBuild]
  cases c.lookup key <;> rfl

section

variable [LawfulBEq κ]

/-- The request at its place in the run: `before` it was made, `own` in the course of its build. -/
theorem MadeAt.concludes (h : MadeAt rs .empty r c) :
    ∃ before own after, endingsAll rs .empty = before ++ own ++ [r.ending c] ++ after ∧
      c = Cache.ofEndings before ∧
      r.run c = ((r.ending c).reply, Cache.ofEndings (before ++ own ++ [r.ending c])) ∧
      (∀ v, (r.run c).1 = .ok v → (builds (before ++ own ++ [r.ending c])).lookup r.key = some v) ∧
      ∀ err, (r.run c).1 = .error err →
        r.outcome = .error err ∧ (r.run c).2 = Cache.ofEndings (before ++ own) := by
  obtain ⟨before, after, hlog, hc⟩ := h.endings
  have hrun := run_eq r c
  obtain ⟨own, hown⟩ := endings_snoc r c
  rw [hown, ← List.append_assoc] at hlog
  have hleads := endingsAll_lead rs Cache.empty
  rw [hlog, List.append_assoc] at hleads
  have hrecords := Cache.records_ofEndings (before ++ own)
  rw [hown, hc, ← Cache.replay_append, ← hc, ← List.append_assoc] at hrun
  refine ⟨before, own, after, hlog, hc, hrun, fun v hv => ?_, fun err herr => ?_⟩
  · rw [hrun] at hv
    have hreply := hrecords.reply hleads.allows hv
    rw [key_ending] at hreply
    rwa [builds_append, builds_cons, Ending.builds_nil, List.append_nil]
  · rw [hrun] at herr
    refine ⟨of_ending_error herr, ?_⟩
    rw [hrun, Cache.replay_append]
    exact Cache.after_of_error herr

/-- Builds that are a function of the key fill the cache with values of that function. -/
theorem of_lookup_builds {f : κ → Except ε ν}
    (hf : ∀ r c, MadeAt rs .empty r c → r.outcome = f r.key) {before after : List (Ending κ ν ε)}
    (hlog : endingsAll rs .empty = before ++ after) {key : κ} {v : ν}
    (h : (builds before).lookup key = some v) : f key = .ok v := by
  obtain ⟨l, l', hbuilds, -⟩ := List.lookup_eq_some_iff.mp h
  have hmem : (key, v) ∈ builds before := hbuilds ▸ List.mem_append_right l (.head l')
  obtain ⟨e, he, hbuilt⟩ := List.mem_filterMap.mp hmem
  obtain ⟨r, c, hmakes, rfl⟩ := mem_endingsAll rs .empty (hlog ▸ List.mem_append_left after he)
  obtain ⟨rfl, hv⟩ := of_ending_built hbuilt
  rw [← hf r c hmakes, hv]

theorem MadeAt.follows {f : κ → Except ε ν}
    (hf : ∀ r c, MadeAt rs .empty r c → r.outcome = f r.key) (h : MadeAt rs .empty r c) :
    (r.run c).1 = f r.key ∧ ∀ key v, c.lookup key = some v → f key = .ok v := by
  obtain ⟨before, own, after, hlog, hc, -, hok, herror⟩ := h.concludes
  constructor
  · cases hreply : (r.run c).1 with
    | ok v => exact (of_lookup_builds hf hlog (hok v hreply)).symm
    | error err => rw [← hf r c h, (herror err hreply).1]
  · intro key v hv
    rw [List.append_assoc, List.append_assoc] at hlog
    rw [hc, (Cache.records_ofEndings before).lookup] at hv
    exact of_lookup_builds hf hlog hv

/-- Whatever requests are made, one after the other and in the course of each other's builds: what is
stored for a key stays, and it is what was first built for it, which every request for the key is
answered that is not answered with the failure of its own build; what was built is counted, and so are
the keys for which there was a build. If builds are a function of the key, then so are the answers. -/
theorem runAll_writes_once (rs : List (CacheRequest κ ν ε)) :
    let log := endingsAll rs .empty
    runAll rs .empty = Cache.ofEndings log ∧
    (∀ r c, MadeAt rs .empty r c → ∃ before own after,
      log = before ++ own ++ [r.ending c] ++ after ∧ c = Cache.ofEndings before ∧
      r.run c = ((r.ending c).reply, Cache.ofEndings (before ++ own ++ [r.ending c])) ∧
      (∀ v, (r.run c).1 = .ok v → (builds (before ++ own ++ [r.ending c])).lookup r.key = some v) ∧
      ∀ err, (r.run c).1 = .error err →
        r.outcome = .error err ∧ (r.run c).2 = Cache.ofEndings (before ++ own)) ∧
    (∀ e ∈ log, ∃ r c, MadeAt rs .empty r c ∧ e = r.ending c) ∧
    (∀ before between after, log = before ++ between ++ after → ∀ key v,
      (Cache.ofEndings before).lookup key = some v →
      (Cache.ofEndings (before ++ between)).lookup key = some v) ∧
    (∀ before after, log = before ++ after →
      (∀ key, (Cache.ofEndings before).lookup key = (builds before).lookup key) ∧
      (Cache.ofEndings before).size = {key | ∃ v, (key, v) ∈ builds before}.ncard ∧
      (Cache.ofEndings before).builds = (builds before).length ∧
      (Cache.ofEndings before).size ≤ (Cache.ofEndings before).builds) ∧
    (∀ key err nested c, MadeAt rs .empty (mk key (.error err) nested) c → c.lookup key = none →
      (mk key (.error err) nested).run c = (.error err, runAll nested c)) ∧
    (∀ key v nested c, MadeAt rs .empty (mk key (.ok v) nested) c →
      (mk key (.ok v) nested).run c =
        (.ok (c.getOrBuild key fun c => (v, runAll nested c)).1,
          (c.getOrBuild key fun c => (v, runAll nested c)).2)) ∧
    ∀ f : κ → Except ε ν, (∀ r c, MadeAt rs .empty r c → r.outcome = f r.key) →
      ∀ r c, MadeAt rs .empty r c →
        (r.run c).1 = f r.key ∧ ∀ key v, c.lookup key = some v → f key = .ok v := by
  refine ⟨(endingsAll_lead rs .empty).eq_replay, fun _ _ => MadeAt.concludes,
    fun e => mem_endingsAll rs .empty, fun before between _ _ key v h => ?_, fun before _ _ => ?_,
    fun _ _ _ _ _ => run_of_failing, fun _ _ _ _ _ => run_of_succeeding ..,
    fun f hf r c => MadeAt.follows hf⟩
  · rw [(Cache.records_ofEndings before).lookup] at h
    rw [(Cache.records_ofEndings (before ++ between)).lookup, builds_append, List.lookup_append, h,
      Option.some_or]
  · have hrecords := Cache.records_ofEndings before
    exact ⟨hrecords.lookup, hrecords.size, hrecords.builds, hrecords.size_le_builds⟩

end

/-- The build for 1 first asks for 1 itself, and then for 2, whose build asks for 3 and fails. -/
def raced : List (CacheRequest Nat Nat String) :=
  [.mk 1 (.ok 10) [.mk 1 (.ok 11) [], .mk 2 (.error "no") [.mk 3 (.ok 30) []]], .mk 1 (.ok 12) []]

theorem raced_writes_once :
    LawfulBEq Nat ∧ (runAll raced .empty).lookup 1 = some 11 ∧ (runAll raced .empty).lookup 2 = none ∧
      (runAll raced .empty).builds = 3 ∧
      (runAll raced .empty).size = {key | ∃ v, (key, v) ∈ [(1, 11), (3, 30), (1, 10)]}.ncard := by
  obtain ⟨hrun, -, -, -, hmoment, -⟩ := runAll_writes_once raced
  obtain ⟨hlookup, hsize, hbuilds, -⟩ := hmoment _ [] (List.append_nil _).symm
  rw [← hrun] at hlookup hsize hbuilds
  exact ⟨inferInstance, hlookup 1, hlookup 2, hbuilds, hsize⟩

end CacheRequest

end LiveExpr
