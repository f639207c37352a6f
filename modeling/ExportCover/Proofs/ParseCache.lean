import Mathlib.Data.Finset.Card
import Mathlib.Data.List.Induction
import Mathlib.Tactic.Lemma
import ExportCover.ParseCache
import ExportCover.Proofs.Outcome

/-!
# A cache of parsed files is a map of snapshots

The disk may change between two requests to a cache. What a request for a file gives is fixed by the
earliest request for it that was answered since it was last dropped, and not by the disk
(`ParseCache.replay_snapshots`). `Since` looks back through a history as far as the last request
that drops a key; with it the theorem is said without the table of the cache. The parser is a
parameter: any function of a grammar's name and a source text that may fail.
-/

namespace ExportCover.ParseCache

/-- What is asked of a cache; a key is the path text of a file and the name of a grammar. -/
inductive Request where
  | get (key : String × String)
  | release (key : String × String)
  | clear
  /-- A source text that is given is parsed. -/
  | parse (grammar : String) (source : Bytes)
deriving DecidableEq, Repr

namespace Request

/-- After the request the file under the key is read anew. -/
def Drops (key : String × String) : Request → Prop
  | .release dropped => dropped = key
  | .clear => True
  | .get _ | .parse _ _ => False

/-- The request asks for the file under the key or drops it. -/
def concerns (key : String × String) : Request → Bool
  | .get other | .release other => other == key
  | .clear => true
  | .parse _ _ => false

end Request

/-- Requests in order, each on the disk as it was at that moment. -/
abbrev History := List (Disk × Request)

/-- An event happened, and no later one drops the key. What happened may depend on the events
before it. -/
def Since (key : String × String) (happened : History → Disk × Request → Prop)
    (history : History) : Prop :=
  ∃ past event later, history = past ++ event :: later ∧ happened past event ∧
    ∀ other ∈ later, ¬ other.2.Drops key

section
variable (parser : String → Bytes → Except Fault Program)

/-- The cache after a request, answered or not. -/
def step (cache : ParseCache) : Disk × Request → ParseCache
  | (disk, .get key) =>
    match cache.getOrParseWith parser disk key.1 key.2 with
    | .ok (_, cache) => cache
    | .error _ => cache
  | (_, .release key) => cache.release key.1 key.2
  | (_, .clear) => .empty
  | (_, .parse _ _) => cache

/-- The cache after a history. -/
def replay (history : History) : ParseCache :=
  history.foldl (step parser) .empty

/-- What a request for a file gives after a history. -/
def got (history : History) (disk : Disk) (key : String × String) : Except Fault ParsedFile :=
  Prod.fst <$> (replay parser history).getOrParseWith parser disk key.1 key.2

/-- The event is a request for the file under the key that is answered. -/
def Succeeds (key : String × String) (past : History) (event : Disk × Request) : Prop :=
  event.2 = .get key ∧ ∃ parsed, got parser past event.1 key = .ok parsed

/-- A request for the file under the key was answered since it was last dropped. -/
def Held (key : String × String) (history : History) : Prop :=
  Since key (Succeeds parser key) history

/-- The earliest request for the file under the key that was answered since it was last dropped was
made on this disk. -/
def OpenedOn (disk : Disk) (key : String × String) (history : History) : Prop :=
  Since key (fun past event => event.1 = disk ∧ Succeeds parser key past event ∧
    ¬ Held parser key past) history

/-- The event changes nothing: a request that is answered from the cache or not at all, a release of
what is not there, or a source text that is parsed. -/
def IsIdle (history : History) : Disk × Request → Prop
  | (disk, .get key) => Held parser key history ∨ ∃ fault, got parser history disk key = .error fault
  | (_, .release key) => ¬ Held parser key history
  | (_, .clear) => ∀ key, ¬ Held parser key history
  | (_, .parse _ _) => True

end

variable {parser : String → Bytes → Except Fault Program} {key : String × String}
  {happened : History → Disk × Request → Prop} {history : History}

/-- In an empty history nothing has happened. -/
lemma not_since_nil : ¬ Since key happened [] := by
  rintro ⟨past, event, later, split, _⟩
  exact absurd split (by simp)

/-- The last event happened, or what happened before it was not dropped by it. -/
lemma since_concat {event : Disk × Request} :
    Since key happened (history ++ [event]) ↔
      happened history event ∨ Since key happened history ∧ ¬ event.2.Drops key := by
  constructor
  · rintro ⟨past, first, later, split, occurred, kept⟩
    obtain rfl | ⟨later, last, rfl⟩ := List.eq_nil_or_concat later
    · obtain ⟨rfl, same⟩ := List.append_inj' split rfl
      cases same
      exact .inl occurred
    · rw [List.concat_eq_append] at split kept
      rw [← List.cons_append, ← List.append_assoc] at split
      obtain ⟨rfl, same⟩ := List.append_inj' split rfl
      cases same
      refine .inr ⟨⟨past, first, later, rfl, occurred, fun other mem => ?_⟩, ?_⟩
      · exact kept other (List.mem_append_left _ mem)
      · exact kept event (List.mem_append_right _ List.mem_cons_self)
  · rintro (occurred | ⟨⟨past, first, later, rfl, occurred, kept⟩, notDropped⟩)
    · exact ⟨history, event, [], rfl, occurred, by simp⟩
    · refine ⟨past, first, later ++ [event], by simp, occurred, fun other mem => ?_⟩
      obtain mem | mem := List.mem_append.mp mem
      · exact kept other mem
      · rwa [List.mem_singleton.mp mem]

/-- The last request is carried out on what the others left. -/
lemma replay_concat (event : Disk × Request) :
    replay parser (history ++ [event]) = step parser (replay parser history) event := by
  rw [replay, List.foldl_append]
  rfl

/-- What a request does to the place for one key: it is filled when it is empty and the file can be
read, and it is emptied when the key is dropped. -/
def cell (parser : String → Bytes → Except Fault Program) (key : String × String)
    (held : Option ParsedFile) : Disk × Request → Option ParsedFile
  | (disk, .get other) =>
    if other = key then held.or (readWith parser disk key.1 key.2).toOption else held
  | (_, .release other) => if other = key then none else held
  | (_, .clear) => none
  | (_, .parse _ _) => held

/-- A file is parsed if it can be read and the parser takes its text. -/
lemma readWith_eq_ok {disk : Disk} {file grammar : String} {parsed : ParsedFile} :
    readWith parser disk file grammar = .ok parsed ↔
      disk.read file = .ok parsed.source ∧ parser grammar parsed.source = .ok parsed.program := by
  obtain ⟨source, program⟩ := parsed
  simp only [readWith, Outcome.bind_eq_ok, Outcome.pure_eq, Except.ok.injEq, ParsedFile.mk.injEq]
  constructor
  · rintro ⟨_, read, _, tree, rfl, rfl⟩
    exact ⟨read, tree⟩
  · rintro ⟨read, tree⟩
    exact ⟨source, read, program, tree, rfl, rfl⟩

/-- A file in the cache is not read again. -/
lemma getOrParseWith_of_find? {cache : ParseCache} {parsed : ParsedFile}
    (found : cache.find? key.1 key.2 = some parsed) (disk : Disk) :
    cache.getOrParseWith parser disk key.1 key.2 = .ok (parsed, cache) := by
  rw [getOrParseWith, found]

/-- A file that is not in the cache is read, and put there if it can be read. -/
lemma getOrParseWith_of_missing {cache : ParseCache}
    (missing : cache.find? key.1 key.2 = none) (disk : Disk) :
    cache.getOrParseWith parser disk key.1 key.2
      = (fun parsed => (parsed, ⟨cache.entries ++ [(key, parsed)]⟩))
        <$> readWith parser disk key.1 key.2 := by
  rw [getOrParseWith, missing]
  cases readWith parser disk key.1 key.2 with
  | error fault => rfl
  | ok parsed => rfl

/-- A request for a file that is kept changes nothing. -/
lemma step_of_find? {cache : ParseCache} {parsed : ParsedFile}
    (found : cache.find? key.1 key.2 = some parsed) (disk : Disk) :
    step parser cache (disk, .get key) = cache := by
  rw [step, getOrParseWith_of_find? found]

/-- A request for a file that cannot be parsed changes nothing. -/
lemma step_of_unreadable {cache : ParseCache} {disk : Disk} {fault : Fault}
    (missing : cache.find? key.1 key.2 = none)
    (unreadable : readWith parser disk key.1 key.2 = .error fault) :
    step parser cache (disk, .get key) = cache := by
  rw [step, getOrParseWith_of_missing missing, unreadable]
  rfl

/-- A file that is parsed for the first time is kept behind the others. -/
lemma step_of_read {cache : ParseCache} {disk : Disk} {parsed : ParsedFile}
    (missing : cache.find? key.1 key.2 = none)
    (read : readWith parser disk key.1 key.2 = .ok parsed) :
    step parser cache (disk, .get key) = ⟨cache.entries ++ [(key, parsed)]⟩ := by
  rw [step, getOrParseWith_of_missing missing, read]
  rfl

/-- A file that is read anew is found under its key and under no other. -/
lemma find?_concat {cache : ParseCache} {other : String × String} {parsed : ParsedFile}
    (missing : cache.find? other.1 other.2 = none) :
    find? ⟨cache.entries ++ [(other, parsed)]⟩ key.1 key.2
      = if other = key then some parsed else cache.find? key.1 key.2 := by
  rw [find?, List.lookup_append]
  split
  next same =>
    subst same
    rw [show cache.entries.lookup (other.1, other.2) = none from missing]
    exact List.lookup_cons_self
  next ne =>
    have differ : ((key.1, key.2) == other) = false := beq_false_of_ne (Ne.symm ne)
    rw [List.lookup_cons, differ, List.lookup_nil, Option.or_none]
    rfl

/-- A file that is dropped is not found, and the others are. -/
lemma find?_release (cache : ParseCache) (other : String × String) :
    (cache.release other.1 other.2).find? key.1 key.2
      = if other = key then none else cache.find? key.1 key.2 := by
  rw [release, find?, find?]
  induction cache.entries with
  | nil => simp
  | cons entry rest ih =>
    rw [List.filter_cons]
    by_cases dropped : entry.1 = other
    · rw [if_neg (by simp [dropped]), ih, List.lookup_cons]
      by_cases same : other = key
      · rw [if_pos same, if_pos same]
      · rw [if_neg same, if_neg same, beq_false_of_ne fun here => same (dropped.symm.trans here.symm)]
    · rw [if_pos (by simpa using dropped), List.lookup_cons, List.lookup_cons, ih]
      by_cases here : entry.1 = key
      · rw [if_neg fun same => dropped (here.trans same.symm), if_neg]
        exact fun same => dropped (here.trans same.symm)
      · rw [beq_false_of_ne (Ne.symm here)]

/-- What a request does to the place for a key depends on nothing but this place. -/
lemma find?_step (cache : ParseCache) (event : Disk × Request) :
    (step parser cache event).find? key.1 key.2
      = cell parser key (cache.find? key.1 key.2) event := by
  obtain ⟨disk, request⟩ := event
  cases request with
  | get other =>
    rw [cell]
    -- Only a file that is not held is read, and only one that can be read is put in.
    cases found : cache.find? other.1 other.2 with
    | some parsed =>
      rw [step_of_find? found]
      by_cases same : other = key
      · rw [if_pos same, ← same, found, Option.some_or]
      · rw [if_neg same]
    | none =>
      cases read : readWith parser disk other.1 other.2 with
      | error fault =>
        rw [step_of_unreadable found read]
        by_cases same : other = key
        · rw [if_pos same, ← same, found, read]
          rfl
        · rw [if_neg same]
      | ok parsed =>
        rw [step_of_read found read, find?_concat found]
        by_cases same : other = key
        · rw [if_pos same, if_pos same, ← same, found, read]
          rfl
        · rw [if_neg same, if_neg same]
  | release other => exact find?_release cache other
  | clear => rfl
  | parse grammar source => rfl

/-- What is found under a key after a history. -/
lemma find?_replay (key : String × String) (history : History) :
    (replay parser history).find? key.1 key.2 = history.foldl (cell parser key) none :=
  (List.foldl_hom (fun cache : ParseCache => cache.find? key.1 key.2)
    (fun cache event => (find?_step cache event).symm)).symm

/-- A file that is found is given; otherwise it is read. -/
lemma got_eq (disk : Disk) :
    got parser history disk key
      = ((replay parser history).find? key.1 key.2).elim (readWith parser disk key.1 key.2)
        .ok := by
  rw [got]
  cases found : (replay parser history).find? key.1 key.2 with
  | some parsed =>
    rw [getOrParseWith_of_find? found]
    rfl
  | none =>
    rw [getOrParseWith_of_missing found]
    cases readWith parser disk key.1 key.2 with
    | error fault => rfl
    | ok parsed => rfl

/-- A file is found exactly if a request for it was answered since it was last dropped. -/
lemma held_iff : Held parser key history ↔ ((replay parser history).find? key.1 key.2).isSome := by
  induction history using List.reverseRecOn with
  | nil => simp [Held, not_since_nil, replay, find?, empty]
  | append_singleton history event ih =>
    rw [Held, since_concat, ← Held, ih, replay_concat, find?_step, Succeeds, got_eq]
    obtain ⟨disk, request⟩ := event
    cases request with
    | get other =>
      by_cases same : other = key
      · -- Only here the place may be filled.
        cases (replay parser history).find? key.1 key.2 with
        | some parsed => simp [cell, same, Request.Drops]
        | none =>
          cases read : readWith parser disk key.1 key.2 with
          | error fault => simp [cell, same, read, Except.toOption]
          | ok parsed => simp [cell, same, read, Except.toOption]
      · simp [cell, same, Request.Drops]
    | release other => by_cases same : other = key <;> simp [cell, same, Request.Drops]
    | clear => simp [cell, Request.Drops]
    | parse grammar source => simp [cell, Request.Drops]

/-- A request is answered if the file is held or can be read. -/
lemma succeeds_iff {event : Disk × Request} :
    Succeeds parser key history event ↔ event.2 = .get key ∧
      (Held parser key history ∨ ∃ parsed, readWith parser event.1 key.1 key.2 = .ok parsed) := by
  rw [Succeeds, held_iff, got_eq]
  cases (replay parser history).find? key.1 key.2 with
  | some parsed => simp
  | none => simp

/-- The earliest answered request is the last one if nothing was held before it. -/
lemma openedOn_concat {disk : Disk} {event : Disk × Request} :
    OpenedOn parser disk key (history ++ [event]) ↔
      (event = (disk, .get key) ∧ (∃ parsed, readWith parser disk key.1 key.2 = .ok parsed) ∧
        ¬ Held parser key history) ∨
      OpenedOn parser disk key history ∧ ¬ event.2.Drops key := by
  rw [OpenedOn, since_concat, ← OpenedOn, succeeds_iff]
  refine or_congr_left ?_
  constructor
  · rintro ⟨rfl, ⟨asks, held | readable⟩, notHeld⟩
    · exact absurd held notHeld
    · exact ⟨Prod.ext rfl asks, readable, notHeld⟩
  · rintro ⟨rfl, readable, notHeld⟩
    exact ⟨rfl, ⟨rfl, .inr readable⟩, notHeld⟩

/-- What is found was read by the earliest request that was answered since the key was last
dropped. -/
lemma find?_eq_some_iff {parsed : ParsedFile} :
    (replay parser history).find? key.1 key.2 = some parsed ↔
      ∃ disk, OpenedOn parser disk key history ∧
        readWith parser disk key.1 key.2 = .ok parsed := by
  induction history using List.reverseRecOn with
  | nil => simp [OpenedOn, not_since_nil, replay, find?, empty]
  | append_singleton history event ih =>
    simp only [openedOn_concat, held_iff, replay_concat, find?_step]
    obtain ⟨disk, request⟩ := event
    cases request with
    | get other =>
      by_cases same : other = key
      · subst same
        cases found : (replay parser history).find? other.1 other.2 with
        | some held =>
          rw [found] at ih
          simpa [cell, Request.Drops] using ih
        | none =>
          -- Nothing was held, so that this request is the earliest if it is answered.
          have unopened : ∀ d, OpenedOn parser d other history →
              ¬ readWith parser d other.1 other.2 = .ok parsed := by simpa [found] using ih
          rw [cell, if_pos rfl, Option.none_or, Outcome.toOption_eq_some]
          constructor
          · intro read
            exact ⟨disk, .inl ⟨rfl, ⟨parsed, read⟩, by simp⟩, read⟩
          · rintro ⟨d, ⟨same, _⟩ | ⟨opened, _⟩, read⟩
            · cases same
              exact read
            · exact absurd read (unopened d opened)
      · simpa [cell, same, Request.Drops] using ih
    | release other =>
      by_cases same : other = key
      · simp [cell, same, Request.Drops]
      · simpa [cell, same, Request.Drops] using ih
    | clear => simp [cell, Request.Drops]
    | parse grammar source => simpa [cell, Request.Drops] using ih

/-- No key is listed twice. -/
lemma nodup_step {cache : ParseCache} (nodup : (cache.entries.map (·.1)).Nodup)
    (event : Disk × Request) : ((step parser cache event).entries.map (·.1)).Nodup := by
  obtain ⟨disk, request⟩ := event
  cases request with
  | get key =>
    cases found : cache.find? key.1 key.2 with
    | some parsed => rwa [step_of_find? found]
    | none =>
      cases read : readWith parser disk key.1 key.2 with
      | error fault => rwa [step_of_unreadable found read]
      | ok parsed =>
        rw [step_of_read found read, List.map_append]
        refine nodup.append (List.nodup_singleton key) (List.disjoint_singleton.mpr ?_)
        rintro listed
        obtain ⟨entry, mem, rfl⟩ := List.mem_map.mp listed
        simpa using List.lookup_eq_none_iff.mp found entry mem
  | release key => exact nodup.sublist (List.filter_sublist.map _)
  | clear => exact List.nodup_nil
  | parse grammar source => exact nodup

/-- No file is kept twice. -/
lemma nodup_replay (history : History) :
    ((replay parser history).entries.map (·.1)).Nodup := by
  induction history using List.reverseRecOn with
  | nil => exact List.nodup_nil
  | append_singleton history event ih =>
    rw [replay_concat]
    exact nodup_step ih event

/-- A file is found exactly if it is among those that are kept. -/
lemma isSome_find?_iff {cache : ParseCache} :
    (cache.find? key.1 key.2).isSome ↔ key ∈ cache.entries.map (·.1) := by
  rw [find?, List.lookup_isSome_iff, List.mem_map]
  constructor
  · rintro ⟨entry, mem, same⟩
    exact ⟨entry, mem, (beq_iff_eq.mp same).symm⟩
  · rintro ⟨entry, mem, same⟩
    exact ⟨entry, mem, beq_iff_eq.mpr same.symm⟩

/-- The cache is as large as the number of keys that are held. -/
lemma size_replay (history : History) :
    ∃ keys : Finset (String × String), (∀ key, key ∈ keys ↔ Held parser key history) ∧
      (replay parser history).size = keys.card := by
  refine ⟨((replay parser history).entries.map (·.1)).toFinset, fun key => ?_, ?_⟩
  · rw [List.mem_toFinset, held_iff, isSome_find?_iff]
  · rw [List.toFinset_card_of_nodup (nodup_replay history), List.length_map, size]

/-- A cache is what it keeps. -/
lemma eq_iff_entries_eq {a b : ParseCache} : a = b ↔ a.entries = b.entries :=
  ⟨congrArg entries, fun same => by cases a; cases b; cases same; rfl⟩

/-- A request changes the cache exactly if it is not idle. -/
lemma step_eq_self_iff (event : Disk × Request) :
    step parser (replay parser history) event = replay parser history ↔
      IsIdle parser history event := by
  obtain ⟨disk, request⟩ := event
  cases request with
  | get key =>
    rw [IsIdle, held_iff, got_eq]
    cases found : (replay parser history).find? key.1 key.2 with
    | some parsed => simp [step_of_find? found]
    | none =>
      cases read : readWith parser disk key.1 key.2 with
      | error fault => simp [step_of_unreadable found read]
      | ok parsed =>
        rw [step_of_read found read]
        -- A file that is put in makes the cache longer.
        refine iff_of_false (fun same => ?_) (by simp)
        have longer := congrArg size same
        rw [size, List.length_append, size, List.length_singleton] at longer
        omega
  | release key =>
    rw [IsIdle, held_iff, isSome_find?_iff, step, release, eq_iff_entries_eq, List.filter_eq_self]
    constructor
    · intro kept listed
      obtain ⟨entry, mem, rfl⟩ := List.mem_map.mp listed
      simpa using kept entry mem
    · intro absent entry mem
      rw [Bool.not_eq_true', beq_eq_false_iff_ne]
      exact fun here => absent (List.mem_map.mpr ⟨entry, mem, here⟩)
  | clear =>
    simp only [IsIdle, held_iff, isSome_find?_iff]
    rw [step, eq_iff_entries_eq, ← List.eq_nil_iff_forall_not_mem, List.map_eq_nil_iff]
    exact eq_comm
  | parse grammar source => exact iff_of_true rfl trivial

/-- Requests that do not concern a key leave what is found under it as it is. -/
lemma find?_replay_filter (key : String × String) (history : History) :
    (replay parser (history.filter (·.2.concerns key))).find? key.1 key.2
      = (replay parser history).find? key.1 key.2 := by
  rw [find?_replay, find?_replay, List.foldl_filter]
  congr 1
  funext held event
  obtain ⟨disk, request⟩ := event
  cases request with
  | get other => by_cases same : other = key <;> simp [Request.concerns, cell, same]
  | release other => by_cases same : other = key <;> simp [Request.concerns, cell, same]
  | clear => rfl
  | parse grammar source => rfl

/-- After every history a cache is a map of snapshots. A request gives the file and the tree that the
earliest answered request for it since it was last dropped has read, and it fails exactly if there
is none and the file cannot be read now. As many files are in the cache as keys are held. Only
requests that read a file or drop one change it, and what a request gives depends on the earlier
requests for its own key alone. -/
theorem replay_snapshots (parser : String → Bytes → Except Fault Program) (history : History) :
    (∀ disk key parsed, got parser history disk key = .ok parsed ↔
      ∃ origin, OpenedOn parser origin key (history ++ [(disk, .get key)]) ∧
        origin.read key.1 = .ok parsed.source ∧
        parser key.2 parsed.source = .ok parsed.program) ∧
    (∀ disk key fault, got parser history disk key = .error fault ↔
      ¬ Held parser key history ∧ readWith parser disk key.1 key.2 = .error fault) ∧
    (∃ keys : Finset (String × String), (∀ key, key ∈ keys ↔ Held parser key history) ∧
      (replay parser history).size = keys.card) ∧
    (∀ event, replay parser (history ++ [event]) = replay parser history ↔
      IsIdle parser history event) ∧
    ∀ disk key, got parser (history.filter (·.2.concerns key)) disk key
      = got parser history disk key := by
  refine ⟨fun disk key parsed => ?_, fun disk key fault => ?_, size_replay history,
    fun event => ?_, fun disk key => ?_⟩
  · -- The request itself is the earliest one if nothing was held before it.
    simp only [← readWith_eq_ok]
    rw [← find?_eq_some_iff, replay_concat, find?_step, cell, if_pos rfl, got_eq]
    cases (replay parser history).find? key.1 key.2 with
    | some held => simp
    | none => simp [Outcome.toOption_eq_some]
  · rw [held_iff, got_eq]
    cases (replay parser history).find? key.1 key.2 with
    | some held => simp
    | none => simp
  · rw [replay_concat]
    exact step_eq_self_iff event
  · rw [got_eq, got_eq, find?_replay_filter]

/-- A file that was read and has changed since is still given as it was, but not under another
grammar. -/
example :
    let before : Disk := ⟨⟨[(["a.ts"], .file [49])]⟩, []⟩
    let after : Disk := ⟨⟨[(["a.ts"], .file [50])]⟩, []⟩
    let source := fun grammar =>
      (got parseSource [(before, .get ("a.ts", "typescript"))] after ("a.ts", grammar)).toOption.map
        (·.source)
    source "typescript" = some [49] ∧ source "tsx" = some [50] := by
  decide +kernel

end ExportCover.ParseCache
