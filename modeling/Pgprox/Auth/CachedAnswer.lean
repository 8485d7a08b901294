/-
Where a grant that a task is given comes from.

That a cached grant is served within its lifetime needs a prompt run: the lifetime is
worked out from one reading of the clock and counted from a later one, and a look into the
map goes by a reading from before the lock.
-/

import Pgprox.Auth.GrantCache

namespace Pgprox.Auth

open List

def Outcome.GoodUntil (config : CacheConfig) (since limit : Nat) : Outcome → Prop
  | .resolved grant =>
    limit ≤ since + min grant.ttl config.maxTtl ∧ ∀ expiry ∈ grant.expiresAt, limit ≤ expiry
  | .refused _ => True

theorem Outcome.GoodUntil.anti {config : CacheConfig} {since limit earlier : Nat}
    {outcome : Outcome} (good : outcome.GoodUntil config since limit) (below : earlier ≤ limit) :
    outcome.GoodUntil config since earlier := by
  cases outcome with
  | resolved grant =>
    exact ⟨below.trans good.1, fun expiry given => below.trans (good.2 expiry given)⟩
  | refused reason => trivial

theorem Grant.effectiveTtl_le (grant : Grant) (now cap : Nat) :
    grant.effectiveTtl now cap ≤ min grant.ttl cap := by
  unfold Grant.effectiveTtl
  cases grant.expiresAt with
  | none => exact le_rfl
  | some expiresAt => exact min_le_left _ _

theorem Grant.effectiveTtl_le_expiry {grant : Grant} {expiry : Nat} (now cap : Nat)
    (given : expiry ∈ grant.expiresAt) : grant.effectiveTtl now cap ≤ expiry - now := by
  unfold Grant.effectiveTtl
  rw [Option.mem_def.mp given]
  exact min_le_right _ _

theorem Outcome.goodUntil_lifetime {config : CacheConfig} {outcome : Outcome} {now : Nat}
    (live : outcome.lifetime config now ≠ 0) :
    outcome.GoodUntil config now (now + outcome.lifetime config now) := by
  cases outcome with
  | refused reason => trivial
  | resolved grant =>
    refine ⟨Nat.add_le_add_left (grant.effectiveTtl_le now config.maxTtl) now, ?_⟩
    intro expiry given
    have short := Grant.effectiveTtl_le_expiry now config.maxTtl given
    change grant.effectiveTtl now config.maxTtl ≠ 0 at live
    change now + grant.effectiveTtl now config.maxTtl ≤ expiry
    omega

/-! ### The map's operations -/

namespace Entries

variable {Digest : Type} [DecidableEq Digest]

structure Within (less more : Entries Digest) : Prop where
  found : ∀ {key entry}, less.map.lookup key = some entry → more.map.lookup key = some entry
  len : less.len ≤ more.len

section

variable (entries : Entries Digest)
include entries

theorem Within.refl : entries.Within entries :=
  ⟨id, le_rfl⟩

theorem within_empty : (empty : Entries Digest).Within entries :=
  ⟨nofun, Nat.zero_le _⟩

theorem within_retain (keep : CacheKey Digest → Entry → Bool) (sweptAt : Option Nat) :
    ({ map := entries.map.retain keep, sweptAt := sweptAt } : Entries Digest).Within entries where
  found := by
    intro key entry kept
    rw [AList.lookup_retain] at kept
    exact (Option.filter_eq_some_iff.mp kept).1
  len := (filter_sublist.map Sigma.fst).length_le

theorem within_erase (key : CacheKey Digest) :
    ({ entries with map := entries.map.erase key } : Entries Digest).Within entries where
  found := by
    intro other entry kept
    rw [AList.lookup_erase_if] at kept
    split at kept
    · exact absurd kept nofun
    · exact kept
  len := by
    unfold len
    rw [AList.keys_erase]
    exact length_erase_le

theorem within_sweep (now : Nat) :
    (entries.sweep now).Within entries := by
  unfold sweep
  split
  · exact Within.refl entries
  · exact within_retain entries _ _

theorem within_makeRoom (capacity : Nat) (key : CacheKey Digest)
    (now : Nat) : (entries.makeRoom capacity key now).Within entries := by
  unfold makeRoom
  split
  · exact within_sweep entries now
  · exact Within.refl entries

theorem within_lookup (key : CacheKey Digest) (now : Nat) :
    (entries.lookup key now).1.Within entries := by
  unfold lookup
  split
  · exact Within.refl entries
  · split
    · exact Within.refl entries
    · exact within_erase entries key

end

theorem lookup_found {entries : Entries Digest} {key : CacheKey Digest} {now : Nat}
    {outcome : Outcome} (found : (entries.lookup key now).2 = some outcome) :
    ∃ entry, entries.map.lookup key = some entry ∧ now < entry.expiresAt ∧
      entry.outcome = outcome := by
  unfold lookup at found
  split at found
  · exact absurd found nofun
  · next entry present =>
      split at found
      · next live => exact ⟨entry, present, live, Option.some.inj found⟩
      · exact absurd found nofun

theorem len_insert_le {entries : Entries Digest} {capacity : Nat} {key : CacheKey Digest}
    (entry : Entry) (bounded : entries.len ≤ capacity)
    (room : entries.isFull capacity key = false) : (entries.insert key entry).len ≤ capacity := by
  have count : (entries.insert key entry).len = (entries.map.keys.erase key).length + 1 := by
    unfold len insert
    rw [AList.keys_insert, length_cons]
  rw [count]
  by_cases present : key ∈ entries.map.keys
  · rw [length_erase_of_mem present]
    have some_key : 0 < entries.map.keys.length := length_pos_of_mem present
    change entries.map.keys.length ≤ capacity at bounded
    omega
  · have absent : entries.map.lookup key = none := AList.lookup_eq_none.mpr present
    rw [erase_of_not_mem present]
    unfold isFull at room
    rw [absent, Option.isNone_none, Bool.and_true, decide_eq_false_iff_not] at room
    exact Nat.not_le.mp room

end Entries

def CacheEvent.Carries (tokens : Set Text) : CacheEvent → Prop
  | .resolve _ request => request.token ∈ tokens
  | _ => True

instance (tokens : Set Text) [DecidablePred (· ∈ tokens)] (event : CacheEvent) :
    Decidable (event.Carries tokens) := by
  unfold CacheEvent.Carries
  split <;> infer_instance

namespace GrantCache

variable {Digest : Type} [DecidableEq Digest]

/-! ### What a run keeps -/

def Prompt (cache : GrantCache Digest) : CacheEvent → Prop
  | .advance task =>
    match cache.tasks task with
    | .glanced _ now => now = cache.time
    | .rechecking _ now => now = cache.time
    | .priced _ _ wall => wall = cache.time
    | .stamped _ _ _ now => now = cache.time
    | _ => True
  | _ => True

instance (cache : GrantCache Digest) (event : CacheEvent) : Decidable (cache.Prompt event) := by
  unfold Prompt
  split
  · split <;> infer_instance
  · infer_instance

/-- Requests carry tokens of a set; with `timely`, every step is prompt too. -/
def Allowed (tokens : Set Text) (timely : Prop) (cache : GrantCache Digest) (event : CacheEvent) :
    Prop :=
  event.Carries tokens ∧ (timely → cache.Prompt event)

instance (tokens : Set Text) (timely : Prop) [DecidablePred (· ∈ tokens)] [Decidable timely]
    (cache : GrantCache Digest) (event : CacheEvent) :
    Decidable (cache.Allowed tokens timely event) :=
  inferInstanceAs (Decidable (_ ∧ _))

variable (hash : Text → Digest) (config : CacheConfig) (tokens : Set Text) (timely : Prop)

/-- The outcome was stored for a like request, and was good at the time it was read. -/
def FromStore (cache : GrantCache Digest) (request : AuthRequest) (outcome : Outcome)
    (read : Nat) : Prop :=
  ∃ kept ∈ cache.stored, kept.request.Alike request ∧ kept.outcome = outcome ∧
    kept.time ≤ read ∧ (timely → outcome.GoodUntil config kept.time (read + 1))

def Backed (cache : GrantCache Digest) (request : AuthRequest) (result : Resolution) :
    Option Nat → Prop
  | none => ⟨request, result⟩ ∈ cache.answers
  | some read =>
    ∃ outcome, result = Outcome.intoResult outcome ∧
      cache.FromStore config timely request outcome read

def Justified (cache : GrantCache Digest) : Phase → Prop
  | .idle => True
  | .looping request | .glanced request _ | .missed request | .waiting request _
  | .leading request | .rechecking request _ | .calling request | .abandoning request =>
    request.token ∈ tokens
  | .releasing request outcome read => cache.FromStore config timely request outcome read
  | .answered request result | .finishing request result =>
    request.token ∈ tokens ∧ ⟨request, result⟩ ∈ cache.answers
  | .priced request outcome _ =>
    request.token ∈ tokens ∧ ⟨request, outcome.intoResult⟩ ∈ cache.answers
  | .stamped request outcome ttl now =>
    request.token ∈ tokens ∧ ⟨request, outcome.intoResult⟩ ∈ cache.answers ∧
      (timely → outcome.GoodUntil config now (now + ttl))
  | .dropping request result read => cache.Backed config timely request result read

structure Sound (cache : GrantCache Digest) : Prop where
  tasks : ∀ task, cache.Justified config tokens timely (cache.tasks task)
  stored : ∀ kept ∈ cache.stored,
    kept.request.token ∈ tokens ∧ ⟨kept.request, kept.outcome.intoResult⟩ ∈ cache.answers
  past : ∀ kept ∈ cache.stored, kept.time ≤ cache.time
  entries : ∀ {key entry}, cache.entries.map.lookup key = some entry →
    ∃ kept ∈ cache.stored, keyOf hash kept.request = key ∧ kept.outcome = entry.outcome ∧
      (timely → entry.outcome.GoodUntil config kept.time entry.expiresAt)
  returned : ∀ answer ∈ cache.returned,
    cache.Backed config timely answer.request answer.result answer.read ∨
      ∃ reason, answer.result = .error (.refused reason) ∧ answer.read = none
  bounded : cache.entries.len ≤ config.capacity

variable {hash config tokens timely}

/-! ### What grows -/

structure Recalls (before after : GrantCache Digest) : Prop where
  answers : before.answers ⊆ after.answers
  stored : before.stored ⊆ after.stored

variable {before after cache : GrantCache Digest}

omit [DecidableEq Digest] in
theorem FromStore.mono (recalls : Recalls before after) {request : AuthRequest}
    {outcome : Outcome} {read : Nat} (found : before.FromStore config timely request outcome read) :
    after.FromStore config timely request outcome read := by
  obtain ⟨kept, listed, same⟩ := found
  exact ⟨kept, recalls.stored listed, same⟩

omit [DecidableEq Digest] in
theorem Backed.mono (recalls : Recalls before after) {request : AuthRequest}
    {result : Resolution} {read : Option Nat}
    (backed : before.Backed config timely request result read) :
    after.Backed config timely request result read := by
  cases read with
  | none => exact recalls.answers backed
  | some time =>
    obtain ⟨outcome, same, found⟩ := backed
    exact ⟨outcome, same, found.mono recalls⟩

omit [DecidableEq Digest] in
theorem Justified.mono (recalls : Recalls before after) {phase : Phase}
    (justified : before.Justified config tokens timely phase) :
    after.Justified config tokens timely phase := by
  cases phase with
  | idle => trivial
  | looping | glanced | missed | waiting | leading | rechecking | calling | abandoning =>
    exact justified
  | releasing => exact FromStore.mono recalls justified
  | answered | finishing | priced => exact ⟨justified.1, recalls.answers justified.2⟩
  | stamped => exact ⟨justified.1, recalls.answers justified.2.1, justified.2.2⟩
  | dropping => exact Backed.mono recalls justified

theorem store_answers (cache : GrantCache Digest) (request : AuthRequest) (outcome : Outcome)
    (ttl now : Nat) :
    (cache.store hash config request outcome ttl now).answers = cache.answers := by
  unfold store
  dsimp only
  split
  · rfl
  · rfl

namespace Sound

section

variable (sound : cache.Sound hash config tokens timely)
include sound

theorem put {phase : Phase} (task : Nat) (justified : cache.Justified config tokens timely phase) :
    (cache.put task phase).Sound hash config tokens timely :=
  { sound with
    tasks := by
      intro other
      change cache.Justified config tokens timely (Function.update cache.tasks task phase other)
      by_cases same : other = task
      · rw [same, Function.update_self]
        exact justified
      · rw [Function.update_of_ne same]
        exact sound.tasks other }

theorem rest (task : Nat) :
    (cache.put task .idle).Sound hash config tokens timely := by
  apply sound.put task
  trivial

theorem finish {request : AuthRequest} {result : Resolution} {read : Option Nat} (task : Nat)
    (backed : cache.Backed config timely request result read ∨
      ∃ reason, result = .error (.refused reason) ∧ read = none) :
    (cache.finish task request result read).Sound hash config tokens timely :=
  { sound.rest task with
    returned := by
      intro answer listed
      rcases mem_append.mp listed with earlier | last
      · exact sound.returned answer earlier
      · rw [mem_singleton.mp last]
        exact backed }

theorem release (request : AuthRequest) :
    (cache.release hash request).Sound hash config tokens timely :=
  { sound with }

theorem withEntries {entries : Entries Digest} (within : entries.Within cache.entries) :
    ({ cache with entries := entries } : GrantCache Digest).Sound hash config tokens timely :=
  { sound with
    entries := fun found => sound.entries (within.found found)
    bounded := within.len.trans sound.bounded }

theorem look (request : AuthRequest) (now : Nat) :
    (cache.look hash request now).1.Sound hash config tokens timely :=
  sound.withEntries (Entries.within_lookup cache.entries (keyOf hash request) now)

/-- What a look finds was stored for a like request: on the tokens used, the key tells
requests apart. -/
theorem look_found
    (distinct : Set.InjOn hash tokens) {request : AuthRequest} {now : Nat} {outcome : Outcome}
    (known : request.token ∈ tokens) (prompt : timely → now = cache.time)
    (found : (cache.look hash request now).2 = some outcome) :
    (cache.look hash request now).1.FromStore config timely request outcome cache.time := by
  obtain ⟨entry, present, live, rfl⟩ := Entries.lookup_found found
  obtain ⟨kept, listed, sameKey, sameOutcome, good⟩ := sound.entries present
  obtain ⟨sameHash, sameDatabase, sameUser⟩ := CacheKey.mk.inj sameKey
  have sameToken := distinct (sound.stored kept listed).1 known sameHash
  refine ⟨kept, listed, ⟨sameToken, sameDatabase, sameUser⟩, sameOutcome,
    sound.past kept listed, fun inTime => ?_⟩
  rw [← prompt inTime]
  exact (good inTime).anti live

theorem claim {request : AuthRequest} (task : Nat) (known : request.token ∈ tokens) :
    (cache.claim hash task request).Sound hash config tokens timely := by
  unfold GrantCache.claim
  split
  · exact sound.put task known
  · have leading : (cache.put task (.leading request)).Sound hash config tokens timely :=
      sound.put task known
    exact { leading with }

theorem store {request : AuthRequest}
    {outcome : Outcome} {ttl now : Nat} (known : request.token ∈ tokens)
    (answered : ⟨request, outcome.intoResult⟩ ∈ cache.answers)
    (good : timely → outcome.GoodUntil config cache.time (now + ttl)) :
    (cache.store hash config request outcome ttl now).Sound hash config tokens timely := by
  have within := cache.entries.within_makeRoom config.capacity (keyOf hash request) now
  unfold GrantCache.store
  dsimp only
  split
  · exact sound.withEntries within
  · next room =>
      have recalls : Recalls cache
          { cache with
            entries := (cache.entries.makeRoom config.capacity (keyOf hash request) now).insert
              (keyOf hash request) ⟨outcome, now + ttl⟩
            stored := cache.stored ++ [⟨request, outcome, cache.time⟩] } :=
        ⟨List.Subset.refl _, subset_append_left _ _⟩
      constructor
      case tasks => exact fun task => (sound.tasks task).mono recalls
      case stored =>
        intro kept listed
        rcases mem_append.mp listed with earlier | last
        · exact sound.stored kept earlier
        · rw [mem_singleton.mp last]
          exact ⟨known, answered⟩
      case past =>
        intro kept listed
        rcases mem_append.mp listed with earlier | last
        · exact sound.past kept earlier
        · rw [mem_singleton.mp last]
      case entries =>
        intro key entry present
        dsimp only [Entries.insert] at present
        rw [AList.lookup_insert_if] at present
        split at present
        · next sameKey =>
            cases present
            exact ⟨⟨request, outcome, cache.time⟩, mem_append_right _ mem_cons_self,
              sameKey.symm, rfl, good⟩
        · obtain ⟨kept, listed, facts⟩ := sound.entries (within.found present)
          exact ⟨kept, recalls.stored listed, facts⟩
      case returned =>
        exact fun answer listed => (sound.returned answer listed).imp_left (Backed.mono recalls)
      case bounded =>
        exact Entries.len_insert_le _ (within.len.trans sound.bounded)
          (Bool.eq_false_iff.mpr room)

theorem answer {request : AuthRequest}
    (task : Nat) (result : Resolution) (known : request.token ∈ tokens) :
    ({ cache.put task (.answered request result) with
        answers := cache.answers ++ [⟨request, result⟩] } :
      GrantCache Digest).Sound hash config tokens timely := by
  have recalls : Recalls cache
      { cache with answers := cache.answers ++ [⟨request, result⟩] } :=
    ⟨subset_append_left _ _, List.Subset.refl _⟩
  have told : GrantCache.Sound hash config tokens timely
      { cache with answers := cache.answers ++ [⟨request, result⟩] } :=
    { sound with
      tasks := fun task => (sound.tasks task).mono recalls
      stored := fun kept listed =>
        ⟨(sound.stored kept listed).1, recalls.answers (sound.stored kept listed).2⟩
      returned := fun answer listed =>
        (sound.returned answer listed).imp_left (Backed.mono recalls) }
  exact told.put task ⟨known, mem_append_right _ mem_cons_self⟩

end

/-! ### One step and a run -/

theorem advance (sound : cache.Sound hash config tokens timely)
    (distinct : Set.InjOn hash tokens) (task : Nat)
    (prompt : timely → cache.Prompt (.advance task)) :
    (cache.advance hash config task).Sound hash config tokens timely := by
  have justified := sound.tasks task
  unfold Prompt at prompt
  dsimp only at prompt
  unfold GrantCache.advance
  cases phase : cache.tasks task with
  | idle | calling => exact sound
  | looping | leading =>
    rw [phase] at justified
    exact sound.put task justified
  | missed request =>
    rw [phase] at justified
    exact sound.claim task justified
  | waiting request channel =>
    rw [phase] at justified
    dsimp only
    split
    · exact sound
    · exact sound.put task justified
  | abandoning request =>
    exact (sound.release request).rest task
  | glanced request now =>
    rw [phase] at justified prompt
    have looked := sound.look request now
    have served := fun outcome => @look_found _ _ _ _ _ _ _ sound distinct _ _ outcome
      justified prompt
    rcases taken : cache.look hash request now with ⟨after, found⟩
    rw [taken] at looked served
    dsimp only
    rw [taken]
    cases found with
    | none => exact looked.put task justified
    | some outcome =>
      exact looked.finish task (.inl ⟨outcome, rfl, served outcome rfl⟩)
  | rechecking request now =>
    rw [phase] at justified prompt
    have looked := sound.look request now
    have served := fun outcome => @look_found _ _ _ _ _ _ _ sound distinct _ _ outcome
      justified prompt
    rcases taken : cache.look hash request now with ⟨after, found⟩
    rw [taken] at looked served
    dsimp only
    rw [taken]
    cases found with
    | none => exact looked.put task justified
    | some outcome => exact looked.put task (served outcome rfl)
  | releasing request outcome read =>
    rw [phase] at justified
    exact (sound.release request).put task ⟨outcome, rfl, justified⟩
  | answered request result =>
    rw [phase] at justified
    rcases result with (reason | reason | reason) | grant
    · exact sound.put task justified
    · exact sound.put task justified
    · exact sound.put task justified
    · exact sound.put task justified
  | priced request outcome wall =>
    rw [phase] at justified prompt
    dsimp only
    split
    · exact sound.put task justified
    · next live =>
        apply sound.put task
        refine ⟨justified.1, justified.2, fun inTime => ?_⟩
        rw [← prompt inTime]
        exact Outcome.goodUntil_lifetime live
  | stamped request outcome ttl now =>
    rw [phase] at justified prompt
    have good : timely → outcome.GoodUntil config cache.time (now + ttl) := by
      intro inTime
      rw [← prompt inTime]
      exact justified.2.2 inTime
    have answered : ⟨request, outcome.intoResult⟩ ∈
        (cache.store hash config request outcome ttl now).answers := by
      rw [store_answers]
      exact justified.2.1
    exact (sound.store justified.1 justified.2.1 good).put task ⟨justified.1, answered⟩
  | finishing request result =>
    rw [phase] at justified
    exact (sound.release request).put task justified.2
  | dropping request result read =>
    rw [phase] at justified
    exact (sound.release request).finish task (.inl justified)

theorem step (checkAlgorithm : Text → Option AuthRejection)
    (sound : cache.Sound hash config tokens timely)
    (distinct : Set.InjOn hash tokens) {event : CacheEvent}
    (allowed : cache.Allowed tokens timely event) :
    (cache.step hash config checkAlgorithm event).Sound hash config tokens timely := by
  cases event with
  | tick elapsed =>
    exact { sound with
      past := fun kept listed => Nat.le_trans (sound.past kept listed) (Nat.le_add_right _ _) }
  | clear => exact sound.withEntries (Entries.within_empty cache.entries)
  | invalidatePrimary server =>
    exact sound.withEntries (Entries.within_retain cache.entries _ cache.entries.sweptAt)
  | advance task => exact sound.advance distinct task allowed.2
  | resolve task request =>
    have known : request.token ∈ tokens := allowed.1
    unfold GrantCache.step
    dsimp only
    split
    · split
      · next reason _ => exact sound.finish task (.inr ⟨reason, rfl, rfl⟩)
      · exact sound.put task known
    · exact sound
  | answer task result =>
    have justified := sound.tasks task
    unfold GrantCache.step
    dsimp only
    split
    · next request calling =>
        rw [calling] at justified
        exact sound.answer task result justified
    · exact sound
  | cancel task =>
    have justified := sound.tasks task
    unfold GrantCache.step
    dsimp only
    split
    · exact sound.rest task
    · next request calling =>
        rw [calling] at justified
        exact sound.put task justified
    · exact sound

theorem initially : (start : GrantCache Digest).Sound hash config tokens timely where
  tasks _ := trivial
  stored := nofun
  past := nofun
  entries := nofun
  returned := nofun
  bounded := Nat.zero_le _

end Sound

theorem FromStore.answered (sound : cache.Sound hash config tokens timely)
    {request : AuthRequest} {outcome : Outcome} {read : Nat}
    (found : cache.FromStore config timely request outcome read) :
    ∃ answer ∈ cache.answers, answer.request.Alike request ∧
      answer.result = outcome.intoResult := by
  obtain ⟨kept, listed, alike, rfl, _⟩ := found
  exact ⟨_, (sound.stored kept listed).2, alike, rfl⟩

theorem Backed.answered (sound : cache.Sound hash config tokens timely)
    {request : AuthRequest} {result : Resolution} {read : Option Nat}
    (backed : cache.Backed config timely request result read) :
    ∃ answer ∈ cache.answers, answer.request.Alike request ∧ answer.result = result := by
  cases read with
  | none => exact ⟨_, backed, ⟨rfl, rfl, rfl⟩, rfl⟩
  | some time =>
    obtain ⟨outcome, rfl, found⟩ := backed
    exact found.answered sound

/-- What is returned from a cache is the sidecar's own answer; with `timely`, it is returned
within its lifetime. -/
structure Faithful (config : CacheConfig) (timely : Prop) (cache : GrantCache Digest) : Prop where
  answered : ∀ given ∈ cache.returned, ∀ grant, given.result = .ok grant →
    ∃ answer ∈ cache.answers, answer.request.Alike given.request ∧ answer.result = .ok grant
  inTime : timely → ∀ given ∈ cache.returned, ∀ grant read, given.result = .ok grant →
    given.read = some read →
      ∃ kept ∈ cache.stored, kept.request.Alike given.request ∧ kept.outcome = .resolved grant ∧
        kept.time ≤ read ∧ read < kept.time + min grant.ttl config.maxTtl ∧
        ∀ expiry ∈ grant.expiresAt, read < expiry
  lasting : ∀ given ∈ cache.returned, given.read.isSome → ∀ reason,
    given.result ≠ .error (.unavailable reason) ∧ given.result ≠ .error (.malformed reason)
  bounded : cache.entries.len ≤ config.capacity

theorem Sound.backed_of_read (sound : cache.Sound hash config tokens timely) {given : Returned}
    (listed : given ∈ cache.returned) {read : Nat} (cached : given.read = some read) :
    ∃ outcome, given.result = Outcome.intoResult outcome ∧
      cache.FromStore config timely given.request outcome read := by
  rcases sound.returned given listed with backed | ⟨_, _, unread⟩
  · rw [cached] at backed
    exact backed
  · rw [cached] at unread
    exact absurd unread nofun

theorem Sound.faithful (sound : cache.Sound hash config tokens timely) :
    cache.Faithful config timely where
  answered := by
    intro given listed grant granted
    rcases sound.returned given listed with backed | ⟨reason, refused, _⟩
    · rw [← granted]
      exact backed.answered sound
    · rw [granted] at refused
      exact absurd refused nofun
  inTime := by
    intro timely given listed grant read granted cached
    obtain ⟨outcome, same, kept, stored, alike, rfl, earlier, good⟩ :=
      sound.backed_of_read listed cached
    rw [granted] at same
    cases outcome : kept.outcome with
    | refused reason =>
      rw [outcome] at same
      exact absurd same nofun
    | resolved other =>
      rw [outcome] at same good
      obtain rfl : grant = other := Except.ok.inj same
      exact ⟨kept, stored, alike, outcome, earlier, good timely⟩
  lasting := by
    intro given listed cached reason
    obtain ⟨read, cached⟩ := Option.isSome_iff_exists.mp cached
    obtain ⟨outcome, same, _⟩ := sound.backed_of_read listed cached
    rw [same]
    cases outcome with
    | resolved | refused => exact ⟨nofun, nofun⟩
  bounded := sound.bounded

/-- On every run what is returned is the sidecar's own answer; on a prompt one no cached
grant outlives its lifetime or its token. -/
theorem cached_grants_faithful (hash : Text → Digest) (config : CacheConfig)
    (checkAlgorithm : Text → Option AuthRejection) {tokens : Set Text}
    (distinct : Set.InjOn hash tokens) (timely : Prop) {cache : GrantCache Digest}
    (reached : Run.Reachable start (Allowed tokens timely) (step hash config checkAlgorithm)
      cache) :
    cache.Faithful config timely := by
  have sound : cache.Sound hash config tokens timely :=
    reached.invariant Sound.initially fun _ _ sound allowed =>
      sound.step checkAlgorithm distinct allowed
  exact sound.faithful

/-! ### A grant served in time, and one served too late -/

def shortLived : Grant where
  tenant := ⟨"acme"⟩
  primary := ⟨⟨"db:5432"⟩, "app", "web"⟩
  ttl := 100
  expiresAt := some 10

def login : AuthRequest where
  token := "eyJ".toList
  startupDatabase := "app".toList
  startupUser := "web".toList
  clientAddr := "10.0.0.7".toList

def smallConfig : CacheConfig where
  maxTtl := 300
  negativeTtl := 5
  capacity := 4

def asked : List CacheEvent :=
  .resolve 0 login :: List.replicate 5 (.advance 0) ++ [.tick 5, .answer 0 (.ok shortLived)]

def run (events : List CacheEvent) : GrantCache Text :=
  events.foldl (step id smallConfig fun _ => none) start

def inTime : List CacheEvent :=
  asked ++ List.replicate 3 (.advance 0) ++
    [.tick 2, .resolve 1 login, .advance 1, .advance 1]

theorem found_in_time :
    (run inTime).Faithful smallConfig True ∧
      ⟨login, .ok shortLived, some 7⟩ ∈ (run inTime).returned :=
  have permitted : Run.Permitted (Allowed Set.univ True) (step id smallConfig fun _ => none)
      (start : GrantCache Text) inTime := by
    decide +kernel
  ⟨cached_grants_faithful id smallConfig (fun _ => none) (Set.injOn_id Set.univ) True
    (Run.Reachable.foldl .start permitted), by decide +kernel⟩

def tooLate : List CacheEvent :=
  asked ++ [.advance 0, .tick 3, .advance 0, .advance 0, .tick 3] ++
    [.resolve 1 login, .advance 1, .advance 1]

theorem served_after_expiry :
    Run.Reachable start (Allowed Set.univ False) (step id smallConfig fun _ => none)
        (run tooLate) ∧
      ⟨login, .ok shortLived, some 11⟩ ∈ (run tooLate).returned ∧
      ¬ (run tooLate).Faithful smallConfig True := by
  have permitted : Run.Permitted (Allowed Set.univ False) (step id smallConfig fun _ => none)
      (start : GrantCache Text) tooLate := by
    decide +kernel
  have served : ⟨login, .ok shortLived, some 11⟩ ∈ (run tooLate).returned := by
    decide +kernel
  refine ⟨Run.Reachable.foldl .start permitted, served, fun faithful => ?_⟩
  obtain ⟨_, _, _, _, _, _, unexpired⟩ := faithful.inTime trivial _ served shortLived 11 rfl rfl
  exact absurd (unexpired 10 rfl) (by decide)

end GrantCache

end Pgprox.Auth
