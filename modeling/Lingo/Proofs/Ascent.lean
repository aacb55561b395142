import Lingo.Proofs.AncestorCall

/-!
# Calls up an ancestor chain

A chain whose objects have handlers of the same name, each of which calls its ancestor's
(`Machine.Ladder`). The level that is running is recovered from the running script, so that
the handlers move up the chain as long as no two levels have the same script.

* `Machine.Ladder.activate_next`, `Machine.Ladder.activate_last`: what the handler of one
  level does;
* `Machine.Ladder.activate_distinct`: the handlers of all levels, by induction on the levels;
* `Machine.Ladder.activate_repeated`: the handlers below a level with a script that a level
  below has, by induction on how deep calls may be;
* `ancestor_calls`: a call by the host, in either case.
-/

namespace Lingo

open Machine
open Host (perform)

variable {m m' : Machine}

/-! ## Chains of such handlers -/

theorem isErrorHandler_sameName {name name' : String} (same : Text.sameName name' name = true) :
    isErrorHandler name' = isErrorHandler name := by
  have folded : Text.sameName name' = Text.sameName name := by
    funext other
    rw [Text.sameName, Text.sameName, Text.sameName_iff.mp same]
  rw [isErrorHandler, isErrorHandler, folded]

/-- Every object of the chain has a script with a handler of the name, and all that these
handlers do is to call their ancestor's and to return. The name is none of those of the
handlers that are not run within each other, and the chain comes to its end. -/
structure Machine.Ladder (m : Machine) (name : String) (me : ObjectId) : Prop where
  running : m.stopped = false
  host : m.hosts.lookup "callancestor" = none
  ordinary : isErrorHandler name = false
  few : (m.memory.heap.chain me).length < Heap.maxChain
  ascends : ∀ id ∈ m.memory.heap.chain me, ∃ site push get list call tail,
    m.levelSite? name id = some site ∧ site.Ascends name push get list call tail ∧
      site.handler.code.toList.length ≤ m.config.stepLimit

/-- The calls of the handlers of levels, each one deeper than the one before. -/
def Machine.levelCalls (m : Machine) (name : String) (me : ObjectId) (levels : List ObjectId)
    (depth : Nat) : List CallInfo :=
  ((levels.filterMap (m.levelSite? name)).zipIdx depth).map fun (site, depth) =>
    site.callInfo #[.object me] (.object me) depth

theorem levelCalls_cons {name : String} {level : ObjectId} {site : HandlerSite}
    (is : m.levelSite? name level = some site) (me : ObjectId) (levels : List ObjectId)
    (depth : Nat) :
    m.levelCalls name me (level :: levels) depth =
      site.callInfo #[.object me] (.object me) depth ::
        m.levelCalls name me levels (depth + 1) := by
  rw [levelCalls, List.filterMap_cons_some is, List.zipIdx_cons, List.map_cons]
  rfl

namespace Machine.Ladder

variable {name : String} {me level : ObjectId} {before after : List ObjectId}
  {site : HandlerSite} (ladder : m.Ladder name me)

include ladder

theorem aside {calls : List CallInfo} (h : Aside m m' calls) : m'.Ladder name me where
  running := h.stopped.trans ladder.running
  host := by rw [h.hosts]; exact ladder.host
  ordinary := ladder.ordinary
  few := by rw [h.chain]; exact ladder.few
  ascends := by rw [h.chain, h.levelSite?, h.config]; exact ladder.ascends

section

variable (member : level ∈ m.memory.heap.chain me) (is : m.levelSite? name level = some site)
  (shallow : m.depth < m.config.maxCallDepth) (remaining : Nat)
  {first : ObjectId} (script : m.levelScript? first = some site.scriptRef)
  (others : ∀ id ∈ before, m.levelScript? id ≠ some site.scriptRef)

include member is shallow

/-- The handler of a level comes to its call, and ends as the call does. -/
theorem activate_site :
    let info := site.callInfo #[.object me] (.object me) (m.depth + 1)
    ∃ m₁ called, Aside m m₁ [info] ∧ m₁.frames = site.frameAt me 4 [] :: m.frames ∧
      Text.sameName called name = true ∧
      Relays m m₁ info
        (perform (callAncestors (callsWith (activate remaining) m.maxHops) called #[] [me] .void)
          m₁)
        (perform (activate (remaining + 1) site #[.object me] (.object me)) m) := by
  obtain ⟨_, _, _, _, _, _, is', ascends, enough⟩ := ladder.ascends level member
  obtain rfl := Option.some.inj (is.symm.trans is')
  have ordinary : isErrorHandler site.name = false :=
    (isErrorHandler_sameName (levelSite?_found is).2).trans ladder.ordinary
  exact activate_ascends remaining ascends ladder.running ladder.host ordinary shallow enough

include script others

/-- A handler whose script is first that of the last level calls nothing. -/
theorem activate_last (split : m.memory.heap.chain me = before ++ [first]) :
    ∃ m', perform (activate (remaining + 1) site #[.object me] (.object me)) m = (.ok .void, m') ∧
      Aside m m' [site.callInfo #[.object me] (.object me) (m.depth + 1)] ∧
      m'.frames = m.frames := by
  obtain ⟨m₁, called, aside, frames, -, relays⟩ :=
    ladder.activate_site member is shallow remaining
  obtain ⟨log, last⟩ := perform_callAncestors_last (m := m₁)
    called (callsWith (activate remaining) m.maxHops)
    (by rw [aside.chain]; exact ladder.few) (by rw [top?, frames]; rfl)
    (by rw [aside.levelScript?]; exact script) (by rw [aside.levelScript?]; exact others)
    (by rw [aside.chain]; exact split)
  exact relays.returns last (.quiet rfl rfl) rfl

/-- A handler whose script is first that of another level ends as the next level's
does. -/
theorem activate_next {next : ObjectId} {above : HandlerSite}
    (split : m.memory.heap.chain me = before ++ first :: next :: after)
    (has : m.levelSite? name next = some above) :
    let info := site.callInfo #[.object me] (.object me) (m.depth + 1)
    ∃ m₁, Aside m m₁ [info] ∧ m₁.depth = m.depth + 1 ∧
      Relays m m₁ info
        (perform (activate remaining above #[.object me] (.object me)) m₁)
        (perform (activate (remaining + 1) site #[.object me] (.object me)) m) := by
  intro info
  obtain ⟨m₁, called, aside, frames, named, relays⟩ :=
    ladder.activate_site member is shallow remaining
  have step := perform_callAncestors_next (m := m₁)
    called (callsWith (activate remaining) m.maxHops)
    (by rw [aside.chain]; exact ladder.few) (by rw [top?, frames]; rfl)
    (by rw [aside.levelScript?]; exact script) (by rw [aside.levelScript?]; exact others)
    (by rw [aside.chain]; exact split)
    (by rw [aside.levelSite?, levelSite?_sameName named]; exact has)
  rw [step] at relays
  exact ⟨m₁, aside, congrArg List.length frames, relays⟩

end

theorem exists_site (member : level ∈ m.memory.heap.chain me) :
    ∃ site, m.levelSite? name level = some site := by
  obtain ⟨site, _, _, _, _, _, is, -⟩ := ladder.ascends level member
  exact ⟨site, is⟩

theorem length_levelCalls (depth : Nat) :
    (m.levelCalls name me (m.memory.heap.chain me) depth).length =
      (m.memory.heap.chain me).length := by
  rw [levelCalls, List.length_map, List.length_zipIdx, List.filterMap_length_eq_length]
  intro id member
  obtain ⟨site, is⟩ := ladder.exists_site member
  rw [is]
  rfl

/-- Where each level has a script of its own, the handlers from one level on are started
one after the other, by induction on the levels that are left. -/
theorem activate_distinct
    (distinct : ((m.memory.heap.chain me).map m.levelScript?).Nodup)
    (split : m.memory.heap.chain me = before ++ level :: after)
    (is : m.levelSite? name level = some site) (remaining : Nat)
    (room : after.length < remaining) (shallow : m.depth + after.length < m.config.maxCallDepth) :
    ∃ m', perform (activate remaining site #[.object me] (.object me)) m = (.ok .void, m') ∧
      Aside m m' (m.levelCalls name me (level :: after) (m.depth + 1)) ∧
      m'.frames = m.frames := by
  induction after generalizing m before level site remaining with
  | nil =>
    obtain ⟨remaining, rfl⟩ : ∃ n, remaining = n + 1 := ⟨remaining - 1, by omega⟩
    obtain ⟨member, script, others⟩ := level_distinct distinct split is
    rw [levelCalls_cons is]
    exact ladder.activate_last member is (by omega) remaining script others split
  | cons next after ih =>
    obtain ⟨remaining, rfl⟩ : ∃ n, remaining = n + 1 := ⟨remaining - 1, by omega⟩
    rw [List.length_cons] at room shallow
    obtain ⟨member, script, others⟩ := level_distinct distinct split is
    have split' : m.memory.heap.chain me = (before ++ [level]) ++ next :: after := by
      rw [split, List.append_assoc, List.singleton_append]
    have there : next ∈ m.memory.heap.chain me := by rw [split']; simp
    obtain ⟨above, has⟩ := ladder.exists_site there
    obtain ⟨m₁, aside, depth, relays⟩ :=
      ladder.activate_next member is (by omega) remaining script others split has
    obtain ⟨m₂, ended, aside', kept⟩ := ih (ladder.aside aside)
      (by rw [aside.chain, aside.levelScript?]; exact distinct)
      (by rw [aside.chain]; exact split') (by rw [aside.levelSite?]; exact has)
      remaining (by omega) (by rw [aside.config, depth]; omega)
    have calls : m₁.levelCalls name me (next :: after) (m₁.depth + 1) =
        m.levelCalls name me (next :: after) (m.depth + 1 + 1) := by
      rw [levelCalls, levelCalls, aside.levelSite?, depth]
    rw [levelCalls_cons is, ← calls]
    exact relays.returns ended aside' kept

/-- Where two levels have the same script, the handlers from any level up to the second
of them on are started until there are too many, by induction on how many more there may
be: above the second one, the search for the running script leads back to the first. -/
theorem activate_repeated {again : ObjectId}
    (split : m.memory.heap.chain me = before ++ again :: after)
    (repeats : m.levelScript? again ∈ before.map m.levelScript?)
    (below : level ∈ before ++ [again]) (is : m.levelSite? name level = some site)
    (remaining : Nat) :
    ∃ handler, Text.sameName handler name = true ∧
      (perform (activate remaining site #[.object me] (.object me)) m).1 =
        .error (.callStackOverflow handler m.config.maxCallDepth) := by
  induction remaining generalizing m level site with
  | zero =>
    refine ⟨site.name, (levelSite?_found is).2, ?_⟩
    rw [activate_overflow site _ _ ladder.running (.inl rfl)]
  | succ remaining ih =>
    rcases Nat.lt_or_ge m.depth m.config.maxCallDepth with shallow | deep
    · have member : level ∈ m.memory.heap.chain me := by
        rw [split, List.append_cons]
        exact List.mem_append_left _ below
      have seen : m.levelScript? level ∈ before.map m.levelScript? := by
        rcases List.mem_append.mp below with h | h
        · exact List.mem_map_of_mem h
        · rw [List.mem_singleton.mp h]
          exact repeats
      obtain ⟨pre, first, between, rfl, script, others⟩ := exists_first_level seen
      rw [(levelSite?_found is).1] at script others
      obtain ⟨next, rest, follows, near⟩ : ∃ next rest,
          between ++ again :: after = next :: rest ∧ next ∈ between ++ [again] := by
        cases between with
        | nil => exact ⟨again, after, rfl, List.mem_singleton_self _⟩
        | cons b between => exact ⟨b, between ++ again :: after, rfl, List.mem_cons_self ..⟩
      have split' : m.memory.heap.chain me = pre ++ first :: next :: rest := by
        rw [split, List.append_assoc, List.cons_append, follows]
      have there : next ∈ m.memory.heap.chain me := by rw [split']; simp
      obtain ⟨above, has⟩ := ladder.exists_site there
      obtain ⟨m₁, aside, -, relays⟩ :=
        ladder.activate_next member is shallow remaining script others split' has
      have below' : next ∈ (pre ++ first :: between) ++ [again] := by
        rw [List.append_assoc]
        exact List.mem_append_right _ (List.mem_cons_of_mem _ near)
      obtain ⟨handler, named, failed⟩ := ih (ladder.aside aside) (by rw [aside.chain]; exact split)
        (by rw [aside.levelScript?]; exact repeats) below' (by rw [aside.levelSite?]; exact has)
      exact ⟨handler, named, relays.fails _ (by rw [failed, aside.config])⟩
    · refine ⟨site.name, (levelSite?_found is).2, ?_⟩
      rw [activate_overflow site _ _ ladder.running (.inr deep)]

/-- The host calls the handler of the object itself. -/
theorem perform_callOn (live : (m.memory.heap.get? me).isSome) :
    ∃ after site, m.memory.heap.chain me = me :: after ∧ m.levelSite? name me = some site ∧
      perform (Host.callOn name #[] (.object me)) m =
        perform (activate (m.config.maxCallDepth - m.depth) site #[.object me] (.object me)) m := by
  have split := Heap.chain_of_live live
  have first : me ∈ m.memory.heap.chain me := by rw [split]; exact List.mem_cons_self ..
  obtain ⟨site, is⟩ := ladder.exists_site first
  have found : m.findObjectHandler? me name = some site := by
    rw [findObjectHandler?_eq, split, List.findSome?_cons_of_isSome (by rw [is]; rfl), is]
  refine ⟨_, site, split, is, ?_⟩
  rw [Host.callOn, perform_get_bind, callHandlerOn, perform_get_bind,
    if_neg (by simp [ladder.running])]
  dsimp only
  rw [found]
  rfl

end Machine.Ladder

/-- Where the handlers of a chain only call their ancestor's, a call on its first object
moves up if each level has a script of its own: one handler is started for each level, in
their order, on the first object and each one level deeper, and the call ends in void. If
two levels have the same script, it does not: the handlers between them are started until
there are too many. -/
theorem ancestor_calls {m : Machine} {name : String} {me : ObjectId}
    (live : (m.memory.heap.get? me).isSome) (ladder : m.Ladder name me)
    (room : m.depth + (m.memory.heap.chain me).length ≤ m.config.maxCallDepth) :
    let levels := m.memory.heap.chain me
    let calls := m.levelCalls name me levels (m.depth + 1)
    let e := perform (Host.callOn name #[] (.object me)) m
    ((levels.map m.levelScript?).Nodup →
      ∃ m', e = (.ok .void, m') ∧ m'.frames = m.frames ∧ calls.length = levels.length ∧
        (m.tracer = some .record → m'.started = m.started ++ calls)) ∧
    (¬ (levels.map m.levelScript?).Nodup → ∃ handler, Text.sameName handler name = true ∧
      e.1 = .error (.callStackOverflow handler m.config.maxCallDepth)) := by
  intro levels calls e
  obtain ⟨after, site, split, is, run⟩ := ladder.perform_callOn live
  have size : (m.memory.heap.chain me).length = after.length + 1 := congrArg List.length split
  refine ⟨fun distinct => ?_, fun repeated => ?_⟩
  · have all : m.memory.heap.chain me = [] ++ me :: after := split
    obtain ⟨m', ended, aside, kept⟩ := ladder.activate_distinct distinct all is
      (m.config.maxCallDepth - m.depth) (by omega) (by omega)
    refine ⟨m', run.trans ended, kept, ladder.length_levelCalls _, fun recording => ?_⟩
    rw [aside.started recording, ← split]
  · obtain ⟨before, again, rest, split', repeats⟩ := exists_repeated_level repeated
    have below : me ∈ before ++ [again] := by
      have first : me :: after = before ++ again :: rest := split.symm.trans split'
      cases before with
      | nil => cases repeats
      | cons b before => rw [(List.cons.inj first).1]; exact List.mem_cons_self ..
    obtain ⟨handler, named, failed⟩ := ladder.activate_repeated split' repeats below is
      (m.config.maxCallDepth - m.depth)
    exact ⟨handler, named, (congrArg Prod.fst run).trans failed⟩

/-- The code of a handler that calls its ancestor's handler `h` and returns. -/
def climbingCode : Array Instruction :=
  #[⟨0, .pushSymb, 0x45, 0⟩, ⟨2, .getParam, 0x4B, 0⟩, ⟨4, .pushArgList, 0x43, 2⟩,
    ⟨6, .extCall, 0x57, 1⟩, ⟨8, .ret, 0x01, 0⟩]

/-- A movie of two parent scripts that have this handler each. -/
def climbingMovie : Library where
  names := ⟨#["h", "callAncestor", "me"]⟩
  scripts := #[1, 2].map fun member =>
    { member, kind := .parent, handlers := #[{ nameId := 0, params := [2], code := climbingCode }] }

/-- An object of the first script, and its ancestor, which is of another script or of the
same. -/
def climbingMachine (above : Int32) : Machine where
  memory := { heap := { objects := #[
    { script := some ⟨1, 1⟩, properties := ⟨[("ancestor", .object ⟨0, 1⟩)]⟩ },
    { script := some ⟨1, above⟩ }] } }
  movie := some climbingMovie
  tracer := some .record

theorem climbingMachine_site {above : Int32} (h : above = 1 ∨ above = 2) {id : ObjectId}
    (hid : id = ⟨0, 0⟩ ∨ id = ⟨0, 1⟩) :
    ∃ site, (climbingMachine above).levelSite? "h" id = some site ∧
      site.library = climbingMovie ∧ site.handler.code = climbingCode := by
  rcases h with rfl | rfl <;> rcases hid with rfl | rfl <;>
    exact ⟨_, (Option.some_get (by decide +kernel)).symm, by decide +kernel, by decide +kernel⟩

theorem climbingMachine_ladder {above : Int32} (h : above = 1 ∨ above = 2) :
    (climbingMachine above).Ladder "h" ⟨0, 0⟩ where
  running := rfl
  host := rfl
  ordinary := by decide +kernel
  few := by rcases h with rfl | rfl <;> decide +kernel
  ascends := by
    have levels : (climbingMachine above).memory.heap.chain ⟨0, 0⟩ = [⟨0, 0⟩, ⟨0, 1⟩] := by
      rcases h with rfl | rfl <;> decide +kernel
    rw [levels]
    intro id hid
    obtain ⟨site, is, library, code⟩ := climbingMachine_site h (by simpa using hid)
    refine ⟨site, _, _, _, _, _, is, ⟨congrArg Array.toList code, ?_, ?_, ?_, ?_, ?_⟩, ?_⟩
    · exact .symbol rfl (by rw [library]; decide +kernel)
    · exact ⟨rfl, rfl⟩
    · exact ⟨.inl rfl, rfl⟩
    · exact ⟨rfl, by rw [library]; decide +kernel⟩
    · exact fun i hi => .inl (by cases hi; rfl)
    · rw [code]
      show 5 ≤ 1000000
      omega

/-- With two scripts, two handlers are started; with one, there are too many. -/
theorem ancestor_calls_climb :
    let call (above : Int32) :=
      perform (Host.callOn "h" #[] (.object ⟨0, 0⟩)) (climbingMachine above)
    ((call 2).1 = .ok .void ∧
      (call 2).2.started.map (fun call => (call.member, call.depth)) = [(1, 1), (2, 2)]) ∧
    ∃ handler, Text.sameName handler "h" = true ∧
      (call 1).1 = .error (.callStackOverflow handler 50) := by
  intro call
  have live (above : Int32) : ((climbingMachine above).memory.heap.get? ⟨0, 0⟩).isSome := rfl
  obtain ⟨climbs, -⟩ := ancestor_calls (live 2) (climbingMachine_ladder (.inr rfl))
    (by decide +kernel)
  obtain ⟨-, fails⟩ := ancestor_calls (live 1) (climbingMachine_ladder (.inl rfl))
    (by decide +kernel)
  obtain ⟨m', ended, -, -, started⟩ := climbs (by decide +kernel)
  refine ⟨?_, fails (by decide +kernel)⟩
  rw [show call 2 = (.ok .void, m') from ended]
  refine ⟨rfl, ?_⟩
  rw [started rfl]
  decide +kernel

/-- An object and its ancestor are of the same script, and a call of the handler does not
come to its end. -/
theorem ancestor_calls_repeat :
    (climbingMachine 1).Ladder "h" ⟨0, 0⟩ ∧
    (climbingMachine 1).memory.heap.chain ⟨0, 0⟩ = [⟨0, 0⟩, ⟨0, 1⟩] ∧
    (perform (Host.callOn "h" #[] (.object ⟨0, 0⟩)) (climbingMachine 1)).1 =
      .error (.callStackOverflow "h" 50) :=
  ⟨climbingMachine_ladder (.inl rfl), by decide +kernel, by decide +kernel⟩

end Lingo
