import Reactor.Proofs.Engine.Lending

/-!
# Sources in progress

A run lists the sources that are being evaluated and keeps the values of those whose evaluation has
come to an end.  The list is told by the machines that are under way: it names the sources that their
frames wait for, the outermost first, behind some that lie on no machine.  No source is listed twice,
and none is both listed and known.

A source is entered only if it is neither listed nor known, and from then on it is one of the two until
the next pass.  So no source is entered twice in a history, and a borrow of one that has come to an end
binds the value it ended with.
-/

namespace Reactor

open List

open Run (mainNames)

/-! ### The sources that machines wait for -/

/-- The source that a frame waits for. -/
def Frame.lending? (program : Program) (frame : Frame) : Option String :=
  match frame.kind, program.node? frame.node with
  | .borrow .source, some (.borrow source _) => some source
  | _, _ => none

variable {program : Program} {frame : Frame}

theorem Frame.lending?_of_ne (other : frame.kind ≠ .borrow .source) :
    frame.lending? program = none := by
  unfold lending?
  split
  · next kind _ => exact absurd kind other
  · rfl

theorem Frame.lending?_of_source {source : String} {given : Option String}
    (kind : frame.kind = .borrow .source)
    (present : program.node? frame.node = some (.borrow source given)) :
    frame.lending? program = some source := by
  simp only [lending?, kind, present]

namespace Machine

variable {program : Program}

/-- The sources that machines wait for, the innermost first. -/
def lendings (program : Program) (machines : List Machine) : List String :=
  (machines.flatMap (·.frames)).filterMap (·.lending? program)

theorem lendings_push (machine : Machine) (frame : Frame) (others : List Machine) :
    lendings program (machine.push frame :: others) =
      (frame.lending? program).toList ++ lendings program (machine :: others) := by
  simp only [lendings, push, flatMap_cons, cons_append, filterMap_cons]
  cases frame.lending? program with
  | none => rfl
  | some source => rfl

theorem lendings_push_of_ne
    {frame : Frame} (other : frame.kind ≠ .borrow .source) (machine : Machine)
    (others : List Machine) :
    lendings program (machine.push frame :: others) = lendings program (machine :: others) := by
  rw [lendings_push, Frame.lending?_of_ne other]
  rfl

theorem lendings_deliver (machine : Machine) (value : Val) (others : List Machine) :
    lendings program (machine.deliver value :: others) = lendings program (machine :: others) := by
  rcases machine with ⟨_ | ⟨top, rest⟩, depth, depth_eq, result⟩
  · rfl
  · have same : (top.receive value).lending? program = top.lending? program := rfl
    simp only [lendings, deliver, flatMap_cons, cons_append, filterMap_cons, same]

theorem lendings_of_nil {machine : Machine} (empty : machine.frames = []) (others : List Machine) :
    lendings program (machine :: others) = lendings program others := by
  simp [lendings, empty]

theorem lendings_fresh (machine : Machine) (node : NodeId) (env : Env) (others : List Machine) :
    lendings program (machine.push (.fresh program node env) :: others) =
      lendings program (machine :: others) := by
  refine lendings_push_of_ne ?_ machine others
  unfold Frame.fresh Frame.initialKind
  split
  · nofun
  · nofun
  · nofun

theorem lendings_of_leads {frame : Frame} {advance : Advance program frame} {lower next : Machine}
    (leads : advance.LeadsTo lower next) (others : List Machine) :
    lendings program (next :: others) = lendings program (advance.onto lower :: others) := by
  rcases leads with ⟨value, rfl⟩ | ⟨node, env, rfl⟩
  · exact lendings_deliver _ value others
  · exact lendings_fresh _ node env others

end Machine

open Machine (lendings)

/-! ### What happens to sources -/

/-- A frame that has reached a source, whose value it binds to a name. -/
def Frame.Reaches (program : Program) (frame : Frame) (source name : String) : Prop :=
  frame.kind = .borrow .enter ∧
    ∃ given, program.node? frame.node = some (.borrow source given) ∧ given.getD source = name

theorem Frame.Reaches.unique {source name other another : String}
    (reaches : frame.Reaches program source name) (again : frame.Reaches program other another) :
    other = source ∧ another = name := by
  obtain ⟨-, _, present, rfl⟩ := reaches
  obtain ⟨-, _, same, rfl⟩ := again
  rw [present] at same
  cases same
  exact ⟨rfl, rfl⟩

/-- The active frame enters the root of the source that it has reached. -/
def Moment.Enters (setup : Setup) (moment : Moment) (source : String) : Prop :=
  ∃ top rest name found env run,
    moment.before.frames = top :: rest ∧ top.Reaches setup.program source name ∧
      setup.program.source? source = some found ∧
      (moment.before.pop.push { top with kind := .borrow .source }).enter setup found.root env run =
        .ok moment.after moment.runAfter

/-- The active frame completes with a value, which it binds to a name in its own scope. -/
def Moment.Binds (moment : Moment) (top : Frame) (name : String) (value : Val) : Prop :=
  (do Action.define top.env name value; moment.before.pop.complete top.node value) moment.run =
    .ok moment.after moment.runAfter

/-- No source is listed twice, and none is both listed and known. -/
structure Run.Tidy (run : Run) : Prop where
  distinct : run.borrowing.Nodup
  unknown : ∀ source ∈ run.borrowing, run.borrowed.get? source = none

/-- Before and after a moment the run is tidy, and the main source is not entered. -/
structure Moment.Tidy (setup : Setup) (moment : Moment) : Prop where
  before : moment.run.Tidy
  after : moment.runAfter.Tidy
  apart : ∀ source ∈ mainNames setup, ¬ moment.Enters setup source

/-- What is true of two events in turn: not both enter the same source, and if the first ends a source
and the second has reached it, the second binds the value it ended with. -/
structure Event.InTurn (setup : Setup) (first second : Event) : Prop where
  once : ∀ moment other source, first = .moved moment → second = .moved other →
    moment.Enters setup source → ¬ other.Enters setup source
  bound : ∀ source value moment top rest name, first.Lends setup.program source value →
    second = .moved moment → moment.before.frames = top :: rest →
      top.Reaches setup.program source name → moment.Binds top name value

/-! ### Watching them -/

/-- The list is told by the machines, and all that is listed behind `base` or known is there. -/
structure Run.Lists
    (program : Program) (base : List String) (machines : List Machine) (run : Run) : Prop where
  listed : run.borrowing = base ++ (lendings program machines).reverse
  tidy : run.Tidy
  found : ∀ source, source ∈ lendings program machines ∨ (run.borrowed.get? source).isSome →
    (program.source? source).isSome

/-- What is left of a history. -/
structure Run.Recalls (setup : Setup) (history : History) (run : Run) : Prop where
  entered : ∀ part ∈ history, ∀ moment source, part.2 = .moved moment → moment.Enters setup source →
    source ∈ run.borrowing ∨ (run.borrowed.get? source).isSome
  ended : ∀ part ∈ history, ∀ source value, part.2.Lends setup.program source value →
    run.borrowed.get? source = some value

/-- What is true of every history between two passes. -/
structure History.Single (setup : Setup) (history : History) : Prop where
  tidy : ∀ part ∈ history, ∀ moment, part.2 = .moved moment → moment.Tidy setup
  inTurn : history.Pairwise fun first second => first.2.InTurn setup second.2

section Keeping

variable {setup : Setup} {base : List String} {machines others : List Machine} {history : History}
  {updating : Bool} {run after : Run} {moment : Moment}

theorem Run.Tidy.beside (tidy : run.Tidy) (borrowed : after.borrowed = run.borrowed)
    (borrowing : after.borrowing = run.borrowing) : after.Tidy :=
  ⟨borrowing ▸ tidy.distinct, by rw [borrowed, borrowing]; exact tidy.unknown⟩

section

variable {program : Program} (lists : run.Lists program base machines)
include lists

theorem Run.Lists.beside (borrowed : after.borrowed = run.borrowed)
    (borrowing : after.borrowing = run.borrowing)
    (same : lendings program others = lendings program machines) :
    after.Lists program base others where
  listed := by rw [borrowing, same]; exact lists.listed
  tidy := lists.tidy.beside borrowed borrowing
  found := by rw [borrowed, same]; exact lists.found

theorem Run.Lists.alone :
    run.Lists program run.borrowing [] where
  listed := (append_nil _).symm
  tidy := lists.tidy
  found source known := lists.found source (known.imp_left nofun)

end

theorem Run.Recalls.beside
    (recalls : run.Recalls setup history) (borrowed : after.borrowed = run.borrowed)
    (borrowing : after.borrowing = run.borrowing) : after.Recalls setup history := by
  refine ⟨?_, ?_⟩
  · rw [borrowed, borrowing]
    exact recalls.entered
  · rw [borrowed]
    exact recalls.ended

/-- A moment joins a history: what it enters was neither listed nor known, and what was known it binds
where it has reached it. -/
theorem History.Single.append (single : history.Single setup) (recalls : run.Recalls setup history)
    (tidy : moment.Tidy setup)
    (fresh : ∀ source, moment.Enters setup source →
      source ∉ run.borrowing ∧ run.borrowed.get? source = none)
    (bound : ∀ source value top rest name, run.borrowed.get? source = some value →
      moment.before.frames = top :: rest → top.Reaches setup.program source name →
        moment.Binds top name value) :
    (history.add updating [.moved moment]).Single setup where
  tidy := by
    refine forall_mem_append.mpr ⟨single.tidy, forall_mem_singleton.mpr ?_⟩
    rintro _ ⟨⟩
    exact tidy
  inTurn := by
    refine pairwise_append.mpr ⟨single.inTurn, pairwise_singleton _ _, ?_⟩
    intro part mem
    refine forall_mem_singleton.mpr ⟨?_, ?_⟩
    · rintro earlier _ source happened ⟨⟩ entered again
      obtain ⟨unlisted, unknown⟩ := fresh source again
      rcases recalls.entered part mem earlier source happened entered with listed | known
      · exact unlisted listed
      · rw [unknown] at known
        cases known
    · rintro source value _ top rest name lends ⟨⟩ shape reaches
      exact bound source value top rest name (recalls.ended part mem source value lends) shape
        reaches

theorem Run.Recalls.append {event : Event} (recalls : run.Recalls setup history)
    (listed : ∀ source, source ∈ run.borrowing ∨ (run.borrowed.get? source).isSome →
      source ∈ after.borrowing ∨ (after.borrowed.get? source).isSome)
    (known : ∀ source value, run.borrowed.get? source = some value →
      after.borrowed.get? source = some value)
    (enters : ∀ moment source, event = .moved moment → moment.Enters setup source →
      source ∈ after.borrowing ∨ (after.borrowed.get? source).isSome)
    (lends : ∀ source value, event.Lends setup.program source value →
      after.borrowed.get? source = some value) :
    after.Recalls setup (history.add updating [event]) where
  entered := by
    refine forall_mem_append.mpr ⟨?_, forall_mem_singleton.mpr enters⟩
    exact fun part mem moment source happened entered =>
      listed source (recalls.entered part mem moment source happened entered)
  ended := by
    refine forall_mem_append.mpr ⟨?_, forall_mem_singleton.mpr lends⟩
    exact fun part mem source value lends =>
      known source value (recalls.ended part mem source value lends)

/-- Sources are watched beside some that lie on no machine. -/
structure Run.Watches
    (setup : Setup) (base : List String) (machines : List Machine) (history : History) (run : Run) :
    Prop where
  lists : run.Lists setup.program base machines
  recalls : run.Recalls setup history
  single : history.Single setup

theorem Run.Watches.quiet {between : Run} (watches : between.Watches setup base machines history)
    (idle : ∀ top rest phase, moment.before.frames = top :: rest → top.kind ≠ .borrow phase)
    (tidy : moment.run.Tidy) (borrowed : moment.runAfter.borrowed = between.borrowed)
    (borrowing : moment.runAfter.borrowing = between.borrowing)
    (same : lendings setup.program others = lendings setup.program machines) :
    moment.runAfter.Watches setup base others (history.add updating [.moved moment]) := by
  have lists := watches.lists.beside borrowed borrowing same
  have still : ∀ source, ¬ moment.Enters setup source := by
    rintro source ⟨top, rest, _, _, _, _, shape, reaches, _⟩
    exact idle top rest _ shape reaches.1
  refine ⟨lists, watches.recalls.append ?_ ?_ ?_ ?_, watches.single.append watches.recalls
    ⟨tidy, lists.tidy, fun source _ => still source⟩ (fun source enters => (still source enters).elim)
    fun _ _ top rest _ _ shape reaches => (idle top rest _ shape reaches.1).elim⟩
  · rw [borrowed, borrowing]
    exact fun _ either => either
  · rw [borrowed]
    exact fun _ _ known => known
  · rintro _ source ⟨⟩ enters
    exact (still source enters).elim
  · rintro source value ⟨top, rest, shape, kind, _⟩
    exact (idle top rest _ shape kind).elim

theorem Run.Watches.called
    (watches : run.Watches setup base machines history) (waiting : List Machine) (function : Val)
    (args : List Val) :
    run.Watches setup base machines (history.add updating [.called waiting function args]) := by
  have notMoved : ∀ moment, Event.called waiting function args ≠ .moved moment := by
    rintro moment ⟨⟩
  have notLent : ∀ source value,
      ¬ Event.Lends setup.program (.called waiting function args) source value := fun _ _ => id
  have recalls : run.Recalls setup (history.add updating [.called waiting function args]) := by
    refine watches.recalls.append (fun _ either => either) (fun _ _ known => known) ?_ ?_
    · exact fun moment _ same => (notMoved moment same).elim
    · exact fun source value lends => (notLent source value lends).elim
  refine ⟨watches.lists, recalls, ?_, ?_⟩
  · exact forall_mem_append.mpr ⟨watches.single.tidy, forall_mem_singleton.mpr
      fun moment same => (notMoved moment same).elim⟩
  · refine pairwise_append.mpr ⟨watches.single.inTurn, pairwise_singleton _ _, ?_⟩
    exact fun _ _ => forall_mem_singleton.mpr
      ⟨fun _ other _ _ same => (notMoved other same).elim,
        fun _ _ moment _ _ _ _ same => (notMoved moment same).elim⟩

end Keeping

/-! ### Borrowing -/

namespace Machine

variable {setup : Setup} {evaluate : Evaluation} {id : NodeId} {source : String}
  {given : Option String}

section

variable (present : setup.program.node? id = some (.borrow source given)) (machine : Machine)
  (env : Env)
include present

theorem step_borrow (values : List Val) (run : Run) :
    (machine.push ⟨id, .borrow .enter, env, values⟩).step setup evaluate run =
      match setup.program.source? source with
      | none => machine.complete id (.failure (.unknownSource source) id) run
      | some found =>
        match run.borrowed.get? source with
        | some value =>
          (do Action.define env (given.getD source) value; machine.complete id value) run
        | none =>
          if source ∈ run.borrowing then
            machine.complete id (.failure (.cyclicBorrow source) id) run
          else
            (do
              let root ← Action.openRoot
              (machine.push ⟨id, .borrow .source, env, values⟩).enter setup found.root root)
              { run with borrowing := run.borrowing ++ [source] } := by
  rw [step_push_eq]
  show (Frame.enterBorrow setup ⟨id, .borrow .enter, env, values⟩ rfl >>= _) run = _
  unfold Frame.enterBorrow Frame.borrowParts
  rw [present]
  simp only [pure_bind]
  cases setup.program.source? source with
  | none => rfl
  | some found =>
    simp only [bind, EStateM.bind, get_apply]
    cases run.borrowed.get? source with
    | some value => rfl
    | none =>
      by_cases progressing : source ∈ run.borrowing
      · simp only [if_pos progressing]
        rfl
      · simp only [if_neg progressing]
        rfl

theorem step_lend {values : List Val} {value : Val} (last : values.getLast? = some value)
    (run : Run) :
    (machine.push ⟨id, .borrow .source, env, values⟩).step setup evaluate run =
      (do Action.define env (given.getD source) value; machine.complete id value)
        { run with
          borrowing := run.borrowing.filter (· ≠ source)
          borrowed := run.borrowed.define source value
          sourceResults := run.sourceResults.define source value } := by
  rw [step_push_eq]
  show (Frame.finishBorrow setup ⟨id, .borrow .source, env, values⟩ >>= _) run = _
  unfold Frame.finishBorrow Frame.borrowParts
  rw [present, last]
  rfl

end

theorem aside_openRoot_enter (machine : Machine) (node : NodeId) (run : Run) :
    Ensures (do let root ← Action.openRoot; machine.enter setup node root) run
      (fun next after => run.Aside after ∧ machine.Enters setup.program next) (fun _ _ => False) := by
  rw [ensures_bind, Action.openRoot, ensures_modifyGet]
  refine (ensures_enter machine node _ _).map ?_
  rintro next _ ⟨⟨scopes, rfl⟩, enters⟩
  exact ⟨{ Run.Aside.refl run with }, enters⟩

end Machine

namespace Run.Watches

variable {setup : Setup} {evaluate : Evaluation} {base : List String}
  {lower next : Machine} {waiting : List Machine} {history : History} {updating : Bool}
  {run start after : Run} {frame : Frame} {source name : String} {value : Val}

theorem completed (watches : run.Watches setup base (lower.push frame :: waiting) history)
    (kind : frame.kind = .borrow .enter)
    (borrowed : start.borrowed = run.borrowed) (borrowing : start.borrowing = run.borrowing)
    (completes : lower.complete frame.node value start = .ok next after)
    (bound : ∀ source known name, run.borrowed.get? source = some known →
      frame.Reaches setup.program source name →
        Moment.Binds ⟨waiting, lower.push frame, run, next, after⟩ frame name known) :
    after.Watches setup base (next :: waiting)
      (history.add updating [.moved ⟨waiting, lower.push frame, run, next, after⟩]) := by
  have still : ∀ source,
      ¬ Moment.Enters setup ⟨waiting, lower.push frame, run, next, after⟩ source := by
    rintro source ⟨_, _, _, found, env, _, ⟨⟩, -, -, entered⟩
    exact Machine.complete_ne_enter (completes.trans entered.symm)
  obtain ⟨rfl, rfl⟩ : next = lower.deliver value ∧
      after = { start with nodeValues := start.nodeValues.insert frame.node value } := by
    cases completes
    exact ⟨rfl, rfl⟩
  have same : lendings setup.program (lower.deliver value :: waiting) =
      lendings setup.program (lower.push frame :: waiting) := by
    rw [Machine.lendings_deliver, Machine.lendings_push_of_ne (by simp [kind])]
  have lists : Run.Lists setup.program base (lower.deliver value :: waiting)
      { start with nodeValues := start.nodeValues.insert frame.node value } :=
    watches.lists.beside borrowed borrowing same
  refine ⟨lists, watches.recalls.append ?_ ?_ ?_ ?_, watches.single.append watches.recalls
    ⟨watches.lists.tidy, lists.tidy, fun source _ => still source⟩
    (fun source enters => (still source enters).elim) ?_⟩
  · rw [borrowed, borrowing]
    exact fun _ either => either
  · rw [borrowed]
    exact fun _ _ known => known
  · rintro _ source ⟨⟩ enters
    exact (still source enters).elim
  · rintro source value ⟨_, _, ⟨⟩, other, _⟩
    rw [kind] at other
    cases other
  · rintro source known _ _ name found ⟨⟩ reaches
    exact bound source known name found reaches

theorem entered (mains : ∀ name ∈ mainNames setup, name ∈ base)
    (watches : run.Watches setup base (lower.push frame :: waiting) history)
    (reaches : frame.Reaches setup.program source name) {found : Source}
    (there : setup.program.source? source = some found)
    (unknown : run.borrowed.get? source = none) (unlisted : source ∉ run.borrowing)
    (enters :
      (do
        let root ← Action.openRoot
        (lower.push { frame with kind := .borrow .source }).enter setup found.root root)
        { run with borrowing := run.borrowing ++ [source] } = .ok next after) :
    after.Watches setup base (next :: waiting)
      (history.add updating [.moved ⟨waiting, lower.push frame, run, next, after⟩]) := by
  obtain ⟨kind, given, present, -⟩ := id reaches
  obtain ⟨borrowed, borrowing, lending⟩ : after.borrowed = run.borrowed ∧
      after.borrowing = run.borrowing ++ [source] ∧
      lendings setup.program (next :: waiting) =
        source :: lendings setup.program (lower.push frame :: waiting) := by
    have ends := @Machine.aside_openRoot_enter setup
      (lower.push { frame with kind := .borrow .source }) found.root
      { run with borrowing := run.borrowing ++ [source] }
    rw [Ensures, enters] at ends
    obtain ⟨aside, leads⟩ := ends
    refine ⟨aside.borrowed, aside.borrowing, ?_⟩
    have under : lendings setup.program (next :: waiting) = lendings setup.program
        (lower.push { frame with kind := .borrow .source } :: waiting) := by
      rcases leads with ⟨value, rfl⟩ | ⟨node, env, rfl⟩
      · exact Machine.lendings_deliver _ value waiting
      · exact Machine.lendings_fresh _ node env waiting
    have waits : Frame.lending? setup.program { frame with kind := .borrow .source } = some source :=
      Frame.lending?_of_source rfl present
    rw [under, Machine.lendings_push, waits, Machine.lendings_push_of_ne (by simp [kind])]
    rfl
  have isSource : ∀ other,
      Moment.Enters setup ⟨waiting, lower.push frame, run, next, after⟩ other → other = source := by
    rintro other ⟨_, _, _, _, _, _, ⟨⟩, again, -⟩
    exact (reaches.unique again).1
  have lists : after.Lists setup.program base (next :: waiting) := by
    obtain ⟨listed, tidy, isFound⟩ := watches.lists
    refine ⟨?_, ⟨?_, ?_⟩, ?_⟩
    · rw [borrowing, lending, reverse_cons, listed, append_assoc]
    · rw [borrowing]
      refine nodup_append.mpr ⟨tidy.distinct, by simp, fun other mem => ?_⟩
      rw [forall_mem_singleton]
      rintro rfl
      exact unlisted mem
    · rw [borrowing, borrowed]
      exact forall_mem_append.mpr ⟨tidy.unknown, forall_mem_singleton.mpr unknown⟩
    · rw [lending, borrowed]
      rintro other (mem | known)
      · rcases mem_cons.mp mem with rfl | earlier
        · simp [there]
        · exact isFound other (.inl earlier)
      · exact isFound other (.inr known)
  refine ⟨lists, watches.recalls.append ?_ ?_ ?_ ?_, watches.single.append watches.recalls
    ⟨watches.lists.tidy, lists.tidy, ?_⟩ ?_ ?_⟩
  · rw [borrowed, borrowing]
    exact fun _ either => either.imp_left (mem_append_left _)
  · rw [borrowed]
    exact fun _ _ known => known
  · rintro _ other ⟨⟩ enters
    rw [borrowing, isSource other enters]
    exact .inl (mem_append_right _ (mem_singleton_self _))
  · rintro other value ⟨_, _, ⟨⟩, another, _⟩
    rw [kind] at another
    cases another
  · intro other isMain enters
    rw [isSource other enters] at isMain
    exact unlisted (watches.lists.listed ▸ mem_append_left _ (mains source isMain))
  · intro other enters
    rw [isSource other enters]
    exact ⟨unlisted, unknown⟩
  · rintro other known _ _ name isKnown ⟨⟩ again
    rw [(reaches.unique again).1, unknown] at isKnown
    cases isKnown

theorem lent
    {given : Option String} (watches : run.Watches setup base (lower.push frame :: waiting) history)
    (kind : frame.kind = .borrow .source)
    (present : setup.program.node? frame.node = some (.borrow source given))
    (last : frame.values.getLast? = some value)
    (lends : (do Action.define frame.env name value; lower.complete frame.node value)
      { run with
        borrowing := run.borrowing.filter (· ≠ source)
        borrowed := run.borrowed.define source value
        sourceResults := run.sourceResults.define source value } = .ok next after) :
    after.Watches setup base (next :: waiting)
      (history.add updating [.moved ⟨waiting, lower.push frame, run, next, after⟩]) := by
  obtain ⟨rfl, borrowed, borrowing⟩ : next = lower.deliver value ∧
      after.borrowed = run.borrowed.define source value ∧
      after.borrowing = run.borrowing.filter (· ≠ source) := by
    cases lends
    exact ⟨rfl, rfl, rfl⟩
  obtain ⟨listed, tidy, isFound⟩ := watches.lists
  have lending : lendings setup.program (lower.push frame :: waiting) =
      source :: lendings setup.program (lower.deliver value :: waiting) := by
    rw [Machine.lendings_push, Machine.lendings_deliver, Frame.lending?_of_source kind present]
    rfl
  have inProgress : source ∈ run.borrowing := by
    rw [listed, lending]
    simp
  have others : ∀ other known, run.borrowed.get? other = some known → source ≠ other := by
    rintro _ known isKnown rfl
    rw [tidy.unknown source inProgress] at isKnown
    cases isKnown
  have still : ∀ source,
      ¬ Moment.Enters setup ⟨waiting, lower.push frame, run, lower.deliver value, after⟩ source := by
    rintro source ⟨_, _, _, _, _, _, ⟨⟩, ⟨other, -⟩, -⟩
    rw [kind] at other
    cases other
  have lists : after.Lists setup.program base (lower.deliver value :: waiting) := by
    rw [lending, reverse_cons, ← append_assoc] at listed
    have distinct := tidy.distinct
    rw [listed, nodup_append] at distinct
    refine ⟨?_, ⟨?_, ?_⟩, ?_⟩
    · have apart : ∀ other ∈ base ++ (lendings setup.program
          (lower.deliver value :: waiting)).reverse, other ≠ source := fun other mem same =>
        distinct.2.2 other mem source (mem_singleton_self _) same
      rw [borrowing, listed, filter_append, filter_eq_self.mpr (by simpa using apart)]
      simp
    · rw [borrowing]
      exact tidy.distinct.filter _
    · rw [borrowing, borrowed]
      intro other mem
      obtain ⟨earlier, isOther⟩ := mem_filter.mp mem
      rw [Bindings.get?_define_of_ne (by simpa using Ne.symm (by simpa using isOther))]
      exact tidy.unknown other earlier
    · rw [borrowed]
      rintro other (mem | known)
      · exact isFound other (.inl (lending ▸ mem_cons_of_mem _ mem))
      · by_cases same : source = other
        · exact isFound other (.inl (lending ▸ same ▸ mem_cons_self))
        · rw [Bindings.get?_define_of_ne same] at known
          exact isFound other (.inr known)
  have known : ∀ other known, run.borrowed.get? other = some known →
      after.borrowed.get? other = some known := by
    intro other known isKnown
    rw [borrowed, Bindings.get?_define_of_ne (others other known isKnown)]
    exact isKnown
  refine ⟨lists, watches.recalls.append ?_ known ?_ ?_, watches.single.append watches.recalls
    ⟨tidy, lists.tidy, fun source _ => still source⟩
    (fun source enters => (still source enters).elim) ?_⟩
  · rintro other (mem | isKnown)
    · by_cases same : source = other
      · right
        rw [borrowed, same, Bindings.get?_define_self]
        rfl
      · left
        rw [borrowing]
        exact mem_filter.mpr ⟨mem, by simpa using Ne.symm same⟩
    · right
      obtain ⟨value, isValue⟩ := Option.isSome_iff_exists.mp isKnown
      rw [known other value isValue]
      rfl
  · rintro _ other ⟨⟩ enters
    exact (still other enters).elim
  · rintro other result ⟨_, _, ⟨⟩, -, isLast, _, same⟩
    rw [present] at same
    cases same
    rw [last] at isLast
    cases isLast
    rw [borrowed, Bindings.get?_define_self]
  · rintro other known _ _ name isKnown ⟨⟩ ⟨another, -⟩
    rw [kind] at another
    cases another

end Run.Watches

/-! ### Other frames -/

/-- The frame goes on without waiting for a source. -/
def Advance.Alone {program : Program} {frame : Frame} : Advance program frame → Prop
  | complete _ => True
  | descend next _ _ _ => next.kind ≠ .borrow .source

theorem Machine.lendings_onto {advance : Advance program frame} (alone : advance.Alone)
    (lower : Machine) (others : List Machine) :
    lendings program (advance.onto lower :: others) = lendings program (lower :: others) := by
  cases advance with
  | complete value => rfl
  | descend next child env smaller => exact lendings_push_of_ne alone lower others

theorem Advance.alone_of_idle {advance : Advance program frame} (idle : advance.Idle) :
    advance.Alone := by
  cases advance with
  | complete value => exact trivial
  | descend next child env lower =>
    rcases idle with kind | kind
    · simp [Alone, kind]
    · simp [Alone, kind]

namespace Frame

open Reactor.Action

variable {setup : Setup} {evaluate : Evaluation} {frame : Frame}

theorem staysAside_missingStream? (names : List String) : StaysAside (missingStream? names) :=
  fun run => (tallies_missingStream? (Run.Aside.manner run) names).mirrors.preserves run (.refl run)

theorem aside_settle
    (id : NodeId) (value : Val) (names : List String) (env : Env) (binding : Option String)
    (run : Run) :
    Ensures (settle id value names env binding) run
      (fun _ after => after.borrowed = run.borrowed ∧ after.borrowing = run.borrowing)
      (fun _ after => after.borrowed = run.borrowed ∧ after.borrowing = run.borrowing) := by
  unfold settle
  split
  · exact ⟨rfl, rfl⟩
  · rw [ensures_bind]
    refine (staysAside_missingStream? names run).imp ?_
      fun _ _ aside => ⟨aside.borrowed, aside.borrowing⟩
    intro missing after aside
    split
    · exact ⟨aside.borrowed, aside.borrowing⟩
    · exact ⟨aside.borrowed, aside.borrowing⟩

theorem alone_advance
    (plain : frame.kind ≠ .operands) (other : ∀ phase, frame.kind ≠ .borrow phase) (run : Run) :
    Ensures (frame.advance setup evaluate) run
      (fun advance after => (after.borrowed = run.borrowed ∧ after.borrowing = run.borrowing) ∧
        advance.Alone)
      (fun _ after => after.borrowed = run.borrowed ∧ after.borrowing = run.borrowing) := by
  rcases frame with ⟨id, kind, env, values⟩
  cases kind with
  | operands => exact absurd rfl plain
  | borrow phase => exact absurd rfl (other phase)
  | body =>
    show Ensures (advanceBody setup ⟨id, .body, env, values⟩) run _ _
    unfold advanceBody
    split
    · exact ⟨⟨rfl, rfl⟩, trivial⟩
    · exact ⟨rfl, rfl⟩
  | reaction phase =>
    cases phase with
    | enter =>
      show Ensures (enterReaction setup ⟨id, .reaction .enter, env, values⟩ rfl) run _ _
      unfold enterReaction reactionParts
      split
      · simp only [pure_bind, ensures_bind, ensures_get]
        split
        · exact ⟨⟨rfl, rfl⟩, trivial⟩
        · split
          · exact ⟨⟨rfl, rfl⟩, trivial⟩
          · exact ⟨⟨rfl, rfl⟩, by simp [Advance.Alone]⟩
      · exact ⟨rfl, rfl⟩
    | initial =>
      show Ensures (testReaction setup ⟨id, .reaction .initial, env, values⟩ rfl) run _ _
      unfold testReaction reactionParts
      split
      · exact ⟨⟨rfl, rfl⟩, by simp [Advance.Alone]⟩
      · exact ⟨rfl, rfl⟩
    | condition =>
      show Ensures (settleReaction setup ⟨id, .reaction .condition, env, values⟩) run _ _
      unfold settleReaction reactionParts
      split
      · simp only [pure_bind, ensures_bind, ensures_modify]
        split
        · exact ⟨rfl, rfl⟩
        · rw [ensures_bind]
          exact (aside_settle _ _ _ _ _ _).map (fun _ _ same => ⟨same, trivial⟩)
      · exact ⟨rfl, rfl⟩

theorem exists_borrow_of_ok
    {run after : Run} {phase : BorrowPhase} {advance : Advance setup.program frame}
    (kind : frame.kind = .borrow phase)
    (advanced : frame.advance setup evaluate run = .ok advance after) :
    ∃ source given, setup.program.node? frame.node = some (.borrow source given) := by
  have ends : Ensures (frame.advance setup evaluate) run
      (fun _ _ => ∃ source given, setup.program.node? frame.node = some (.borrow source given))
      (fun _ _ => True) := by
    rcases frame with ⟨id, _, env, values⟩
    cases kind
    cases phase with
    | enter =>
      show Ensures (enterBorrow setup ⟨id, .borrow .enter, env, values⟩ rfl) run _ _
      unfold enterBorrow borrowParts
      split
      · next source given present =>
        exact (ensures_end _ run).imp (fun _ _ _ => ⟨source, given, present⟩) fun _ _ _ => trivial
      · exact trivial
    | source =>
      show Ensures (finishBorrow setup ⟨id, .borrow .source, env, values⟩) run _ _
      unfold finishBorrow borrowParts
      split
      · next source given present =>
        exact (ensures_end _ run).imp (fun _ _ _ => ⟨source, given, present⟩) fun _ _ _ => trivial
      · exact trivial
  rwa [Ensures, advanced] at ends

theorem tidy_of_error
    {run after : Run} {defect : Defect} (plain : frame.kind ≠ .operands) (tidy : run.Tidy)
    (failed : frame.advance setup evaluate run = .error defect after) : after.Tidy := by
  have ends : Ensures (frame.advance setup evaluate) run (fun _ _ => True)
      (fun _ after => after.Tidy) := by
    rcases frame with ⟨id, kind, env, values⟩
    cases kind with
    | borrow phase =>
      cases phase with
      | enter =>
        show Ensures (enterBorrow setup ⟨id, .borrow .enter, env, values⟩ rfl) run _ _
        unfold enterBorrow borrowParts
        split
        · simp only [pure_bind]
          split
          · exact trivial
          · simp only [ensures_bind, ensures_get]
            split
            · exact trivial
            · split
              · exact trivial
              · exact trivial
        · exact tidy
      | source =>
        show Ensures (finishBorrow setup ⟨id, .borrow .source, env, values⟩) run _ _
        unfold finishBorrow borrowParts
        split
        · simp only [pure_bind, ensures_bind, ensures_modify]
          split
          · exact ⟨tidy.distinct.filter _, fun source mem =>
              tidy.unknown source (mem_filter.mp mem).1⟩
          · exact trivial
        · exact tidy
    | operands | body | reaction phase =>
      exact (alone_advance plain (by simp) run).imp (fun _ _ _ => trivial)
        fun _ _ same => tidy.beside same.1 same.2
  rwa [Ensures, failed] at ends

end Frame

namespace Run.Watches

variable {setup : Setup} {evaluate : Evaluation} {base : List String}
  {lower next : Machine} {waiting : List Machine} {history : History} {updating : Bool}
  {run between after : Run} {frame : Frame}

theorem reached
    (mains : ∀ name ∈ mainNames setup, name ∈ base) {source : String} {given : Option String}
    (watches : run.Watches setup base (lower.push frame :: waiting) history)
    (kind : frame.kind = .borrow .enter)
    (present : setup.program.node? frame.node = some (.borrow source given))
    (stepped : (lower.push frame).step setup evaluate run = .ok next after) :
    after.Watches setup base (next :: waiting)
      (history.add updating [.moved ⟨waiting, lower.push frame, run, next, after⟩]) := by
  rcases frame with ⟨id, _, env, values⟩
  cases kind
  have reaches : Frame.Reaches setup.program ⟨id, .borrow .enter, env, values⟩ source
      (given.getD source) := ⟨rfl, given, present, rfl⟩
  rw [Machine.step_borrow present] at stepped
  cases there : setup.program.source? source with
  | none =>
    rw [there] at stepped
    refine watches.completed rfl rfl rfl stepped fun other known name isKnown again => ?_
    have found := watches.lists.found other (.inr (by simp [isKnown]))
    rw [(reaches.unique again).1, there] at found
    cases found
  | some found =>
    rw [there] at stepped
    dsimp only at stepped
    cases isKnown : run.borrowed.get? source with
    | some value =>
      rw [isKnown] at stepped
      refine watches.completed rfl ?_ ?_ stepped fun other known name isOther again => ?_
      · rfl
      · rfl
      · obtain ⟨rfl, rfl⟩ := reaches.unique again
        rw [isKnown] at isOther
        cases isOther
        exact stepped
    | none =>
      rw [isKnown] at stepped
      dsimp only at stepped
      split at stepped
      · refine watches.completed rfl rfl rfl stepped fun other known name isOther again => ?_
        rw [(reaches.unique again).1, isKnown] at isOther
        cases isOther
      · next unlisted => exact watches.entered mains reaches there isKnown unlisted stepped

theorem ends {source : String} {given : Option String} {advance : Advance setup.program frame}
    (watches : run.Watches setup base (lower.push frame :: waiting) history)
    (kind : frame.kind = .borrow .source)
    (present : setup.program.node? frame.node = some (.borrow source given))
    (advanced : frame.advance setup evaluate run = .ok advance between)
    (stepped : (lower.push frame).step setup evaluate run = .ok next after) :
    after.Watches setup base (next :: waiting)
      (history.add updating [.moved ⟨waiting, lower.push frame, run, next, after⟩]) := by
  rcases frame with ⟨id, _, env, values⟩
  cases kind
  cases last : values.getLast? with
  | none =>
    change Frame.finishBorrow setup ⟨id, .borrow .source, env, values⟩ run = _ at advanced
    simp only [Frame.finishBorrow, Frame.borrowParts, present, last] at advanced
    cases advanced
  | some value =>
    rw [Machine.step_lend present lower env last] at stepped
    exact watches.lent rfl present last stepped

end Run.Watches

/-! ### Evaluation -/

/-- Sources are watched beside some that lie on no machine, the main source among them. -/
def Action.lending (setup : Setup) (updating : Bool) (base : List String)
    (mains : ∀ name ∈ mainNames setup, name ∈ base) : Watch setup updating where
  Knows _ := True
  Holds machines history run := run.Watches setup base machines history
  Past history run := run.Tidy ∧ history.Single setup
  knows := trivial
  knowsWithin _ := trivial
  past watches := ⟨watches.lists.tidy, watches.single⟩
  aside watches aside :=
    ⟨watches.lists.beside aside.borrowed aside.borrowing rfl,
      watches.recalls.beside aside.borrowed aside.borrowing, watches.single⟩
  pastAside past aside := ⟨past.1.beside aside.borrowed aside.borrowing, past.2⟩
  called function args watches := watches.called _ function args
  started := by
    intro waiting history run after machine watches aside fresh
    refine watches.quiet (fun _ _ _ shape => nomatch (shape : [] = _ :: _)) watches.lists.tidy
      aside.borrowed aside.borrowing ?_
    rcases fresh with empty | ⟨node, env, rfl⟩
    · exact Machine.lendings_of_nil empty waiting
    · rw [Machine.lendings_fresh]
      exact Machine.lendings_of_nil rfl waiting
  ended watches empty :=
    ⟨watches.lists.beside rfl rfl (Machine.lendings_of_nil empty _).symm, watches.recalls,
      watches.single⟩
  stepped := by
    intro lower next frame waiting history run between after evaluate advance plain watches advanced
      aside leads stepped
    cases kind : frame.kind with
    | operands => exact absurd kind plain
    | borrow phase =>
      obtain ⟨source, given, present⟩ := Frame.exists_borrow_of_ok kind advanced
      cases phase with
      | enter => exact watches.reached mains kind present stepped
      | source => exact watches.ends kind present advanced stepped
    | body | reaction phase =>
      have alone := @Frame.alone_advance setup evaluate frame plain (by simp [kind]) run
      rw [Ensures, advanced] at alone
      obtain ⟨⟨borrowed, borrowing⟩, goesOn⟩ := alone
      refine watches.quiet ?_ watches.lists.tidy (aside.borrowed.trans borrowed)
        (aside.borrowing.trans borrowing) ?_
      · rintro _ _ phase ⟨⟩ other
        rw [kind] at other
        cases other
      · rw [Machine.lendings_of_leads leads, Machine.lendings_onto goesOn,
          Machine.lendings_push_of_ne (by simp [kind])]
  failed plain watches failed := ⟨Frame.tidy_of_error plain watches.lists.tidy failed, watches.single⟩
  combined := by
    intro lower next frame waiting history events run between after evaluate advance operands watches
      _ _ inside idle aside leads _
    refine inside.quiet ?_ watches.lists.tidy aside.borrowed aside.borrowing ?_
    · rintro _ _ phase ⟨⟩ kind
      rw [operands] at kind
      cases kind
    · rw [Machine.lendings_of_leads leads, Machine.lendings_onto (Advance.alone_of_idle idle),
        Machine.lendings_push_of_ne (by simp [operands])]

end Reactor
