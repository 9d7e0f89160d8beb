/-
# Without prediction a client mirrors the newest snapshot

The world that predicts also holds the shots of a client that does not predict. Such a
client still shares its clock, its snapshots and its drawing with the other one, but nothing
of it ever flies: after any run its world holds the items of the newest snapshot, one for
one and as they were published, whatever ticks have passed since (`World.Mirrors`). What it
draws comes out of its history alone (`DrawnAt`).

Key definitions: `Entity.StandsFor`, `World.Shows`, `World.Mirrors`, `DrawnAt`.
Key theorems: `Client.Becomes.mirrors`, `Client.mirrors_newest`.
-/
import Mathlib.Data.List.Forall2
import Volley.Proofs.Client.Acceptance

namespace Volley

/-- An entity carries the number of an item, and is the shot of its record. -/
structure Entity.StandsFor (ctx : TickContext) (e : Entity) (item : SnapshotItem) : Prop where
  number : e.serverId = some item.id
  shot : e.shot = Shot.ofRecord ctx item.record

namespace World

theorem mirrored_standFor (ctx : TickContext) (next : UInt64) (items : List SnapshotItem) :
    List.Forall₂ (Entity.StandsFor ctx) (mirrored ctx next items) items := by
  induction items generalizing next with
  | nil => exact .nil
  | cons item rest ih => exact .cons ⟨rfl, rfl⟩ (ih (next + 1))

/-- Some entities stand for the items of a snapshot, seen at its tick, one for one and in
order. Without a snapshot there are none. -/
def Shows (ctx : Tick → TickContext) (entities : List Entity) : Option Snapshot → Prop
  | none => entities = []
  | some s => List.Forall₂ (Entity.StandsFor (ctx s.tick)) entities s.items

/-- Nothing is in a world but what the newest snapshot shows. -/
structure Mirrors (ctx : Tick → TickContext) (newest : Option Snapshot) (w : World) : Prop where
  context : w.contextAt = ctx
  silent : w.effects.impacts = []
  retired : w.retired = []
  shown : Shows ctx w.live newest

theorem mirrors_new (cfg : Config) (terrain : Terrain) :
    Mirrors (World.new cfg terrain).contextAt none (World.new cfg terrain) where
  context := rfl
  silent := rfl
  retired := rfl
  shown := rfl

/-- A snapshot that replaces the whole world is mirrored by it. -/
theorem Mirrors.replaceAll {ctx : Tick → TickContext} {newest : Option Snapshot} {w : World}
    (m : Mirrors ctx newest w) (s : Snapshot) : Mirrors ctx (some s) (Client.replaceAll w s) := by
  rw [replaceAll_eq, m.context]
  exact ⟨m.context, m.silent, rfl, mirrored_standFor ..⟩

/-- Every entity that is shown stands for an item. -/
theorem Shows.exists_item {ctx : Tick → TickContext} {entities : List Entity} {s : Snapshot}
    (h : Shows ctx entities (some s)) {e : Entity} (he : e ∈ entities) :
    ∃ item ∈ s.items, Entity.StandsFor (ctx s.tick) e item := by
  obtain ⟨k, hk, rfl⟩ := List.getElem_of_mem he
  have hk' : k < s.items.length := h.length_eq ▸ hk
  exact ⟨s.items[k], List.getElem_mem hk', h.get hk hk'⟩

end World

/-- Where a list of snapshots puts a shot at a fraction of the way between the two newest
ones: in between its first records in both, or at that in the newest one if the other does
not list it. -/
def DrawnAt (snapshots : List Snapshot) (id : EntityId) (fraction : Scalar) (p : Vec2) : Prop :=
  ∃ earlier newest r, snapshots = earlier ++ [newest] ∧ newest.find? id = some r ∧
    p = match earlier.getLast?.bind (·.find? id) with
      | some before => before.position.lerp r.position fraction
      | none => r.position

theorem Snapshot.exists_find? {s : Snapshot} {item : SnapshotItem} (h : item ∈ s.items) :
    ∃ r, s.find? item.id = some r := by
  rw [find?, ← Option.isSome_iff_exists, Option.isSome_map, List.find?_isSome]
  exact ⟨item, h, by simp⟩

namespace Client

variable {ctx : Tick → TickContext} {newest : Option Snapshot} {c : Client}

/-- One action of a client that does not predict. -/
theorem Becomes.mirrors {a : Action} {w : World} (h : Becomes c a w)
    (off : c.predicting = false) (m : c.world.Mirrors ctx newest) :
    w.Mirrors ctx ((c.accepted? a).or newest) := by
  cases h with
  | same created refused =>
    rw [refused]
    exact m
  | fired l is predicting => simp [off] at predicting
  | ticked is predicting => simp [off] at predicting
  | waited is =>
    rw [is, accepted?_eq_none rfl]
    exact ⟨m.context, m.silent, m.retired, m.shown⟩
  | drained is =>
    rw [is, accepted?_eq_none rfl]
    exact ⟨m.context, rfl, m.retired, m.shown⟩
  | reconciled s accepted predicting => simp [off] at predicting
  | mirrored s t accepted =>
    have hset : (c.world.setTick t).Mirrors ctx newest :=
      ⟨m.context, m.silent, m.retired, m.shown⟩
    rw [accepted]
    exact hset.replaceAll s

/-- A run of a client that does not predict. -/
theorem mirrors_play {as : List Action} {taken : List Snapshot}
    (off : c.predicting = false) (stays : ∀ a ∈ as, a ≠ .setPredicting true)
    (m : c.world.Mirrors ctx taken.getLast?) :
    (c.play as).world.Mirrors ctx (taken ++ c.heard as).getLast? := by
  induction as generalizing c taken with
  | nil =>
    rw [heard, List.append_nil]
    exact m
  | cons a as ih =>
    have hoff : (c.act a).predicting = false :=
      act_predicting off (stays a List.mem_cons_self)
    have hnewest : (taken ++ (c.heard? a).toList).getLast? =
        (c.accepted? a).or taken.getLast? := by
      rw [List.getLast?_append, heard?_eq]
      cases c.accepted? a <;> rfl
    have hfirst := (act_becomes c a).mirrors off m
    rw [← hnewest] at hfirst
    have hrest := ih hoff (fun b hb => stays b (List.mem_cons_of_mem _ hb)) hfirst
    rw [List.append_assoc] at hrest
    exact hrest

/-! ### Drawing -/

/-- What a history holds of a shot decides where it is drawn. -/
theorem drawnAt_renderPosition {earlier : List Snapshot} {s : Snapshot} {r : Record}
    {id : EntityId} {e : Entity} (off : c.predicting = false)
    (held : c.history.snapshots = earlier ++ [s]) (number : e.serverId = some id)
    (listed : s.find? id = some r) (fraction : Scalar) :
    DrawnAt c.history.snapshots id fraction (c.renderPosition fraction e) := by
  refine ⟨earlier, s, r, held, listed, ?_⟩
  have hconfirmed : c.renderPosition fraction e =
      (c.confirmedPosition id fraction).getD (e.shot.renderPosition c.world.context fraction) := by
    simp [renderPosition, off, number]
  rw [hconfirmed, confirmedPosition, History.interpolate_concat held,
    History.record?_concat held, listed]
  cases earlier.getLast?.bind (·.find? id) <;> rfl

/-- **Without prediction a client mirrors the newest snapshot.** Let prediction be off from
the start. After any run no effect waits, nothing is retired, and a shot cannot be fired. The
live entities are the items of the newest snapshot that was taken, one for one and in order,
each with the shot of its record at the tick of that snapshot. Every one is drawn where the
two newest snapshots put it, and these are the last ones that were taken. -/
theorem mirrors_newest (cfg : Config) (terrain : Terrain) (as : List Action)
    (stays : ∀ a ∈ as, a ≠ .setPredicting true) :
    let start := (Client.new cfg terrain).setPredicting false
    let c := start.play as
    let taken := start.heard as
    c.world.effects.impacts = [] ∧ c.world.retired = [] ∧ (∀ l, c.fire l = (none, c)) ∧
      World.Shows (World.new cfg terrain).contextAt c.world.live taken.getLast? ∧
      c.history.snapshots = taken.drop (taken.length - max cfg.snapshotHistory 1) ∧
      ∀ fraction, List.Forall₂
        (fun e drawn => drawn.1 = e.id ∧
          ∃ id, e.serverId = some id ∧ DrawnAt c.history.snapshots id fraction drawn.2)
        c.world.live (c.renderPositions fraction) := by
  intro start c taken
  have off : c.predicting = false := play_predicting rfl stays
  have hremembers : c.history.Remembers cfg.snapshotHistory ([] ++ taken) :=
    remembers_play (History.remembers_new cfg.snapshotHistory) as
  have hmirrors : c.world.Mirrors (World.new cfg terrain).contextAt ([] ++ taken).getLast? :=
    mirrors_play rfl stays (World.mirrors_new cfg terrain)
  rw [List.nil_append] at hremembers hmirrors
  refine ⟨hmirrors.silent, hmirrors.retired, fun l => by simp [fire, off], hmirrors.shown,
    hremembers.held, fun fraction => ?_⟩
  rw [renderPositions, List.forall₂_map_right_iff, List.forall₂_same]
  intro e he
  refine ⟨rfl, ?_⟩
  have hshown := hmirrors.shown
  have hlatest := hremembers.latest?
  cases hs : taken.getLast? with
  | none =>
    rw [hs] at hshown
    rw [show c.world.live = [] from hshown] at he
    cases he
  | some s =>
    rw [hs] at hshown hlatest
    obtain ⟨earlier, held⟩ := List.getLast?_eq_some_iff.mp hlatest
    obtain ⟨item, hitem, hstands⟩ := hshown.exists_item he
    obtain ⟨r, listed⟩ := Snapshot.exists_find? hitem
    exact ⟨item.id, hstands.number,
      drawnAt_renderPosition off held hstands.number listed fraction⟩

/-- A snapshot that repeats the number 7. -/
def doubled : Snapshot :=
  { tick := 3
    items := [⟨⟨7⟩, { (default : Record) with x := 40 }⟩, ⟨⟨8⟩, default⟩, ⟨⟨7⟩, default⟩] }

/-- A run that takes a snapshot with 7 alone and then `doubled`. In between and after come
ticks, shots, a packet that cannot be read and a snapshot that is too late. -/
def watching : List Action :=
  [.fire { weapon := .gun, owner := some ⟨0⟩, origin := Vec2.zero, direction := Vec2.zero },
    .receive { tick := 1, items := [⟨⟨7⟩, default⟩] }, .tick, .receiveBytes [7],
    .receive doubled, .tick, .receive { tick := 2 }, .tick,
    .fire { weapon := .gun, owner := some ⟨0⟩, origin := Vec2.zero, direction := Vec2.zero }]

/-- Two ticks after `doubled` its three items are all there is, and each is drawn where the
history puts its number. -/
theorem mirrors_newest_doubled :
    let c := ((Client.new .standard .openSpace).setPredicting false).play watching
    (∀ a ∈ watching, a ≠ .setPredicting true) ∧
      c.world.tick = 5 ∧ c.world.effects.impacts = [] ∧ c.world.retired = [] ∧
      World.Shows (World.new .standard .openSpace).contextAt c.world.live (some doubled) ∧
      c.world.live.map (·.serverId) = [some ⟨7⟩, some ⟨8⟩, some ⟨7⟩] ∧
      c.history.snapshots.map (·.tick) = [1, 3] ∧
      ∀ fraction, List.Forall₂
        (fun e drawn => drawn.1 = e.id ∧
          ∃ id, e.serverId = some id ∧ DrawnAt c.history.snapshots id fraction drawn.2)
        c.world.live (c.renderPositions fraction) := by
  dsimp only
  have stays : ∀ a ∈ watching, a ≠ .setPredicting true := by simp [watching]
  have clock : (((Client.new .standard .openSpace).setPredicting false).play
      watching).world.tick = 5 := by decide +kernel
  have newest : (((Client.new .standard .openSpace).setPredicting false).heard
      watching).getLast? = some doubled := by decide +kernel
  have numbers : (((Client.new .standard .openSpace).setPredicting false).play
      watching).world.live.map (·.serverId) = [some ⟨7⟩, some ⟨8⟩, some ⟨7⟩] := by decide +kernel
  have kept : (((Client.new .standard .openSpace).setPredicting false).play
      watching).history.snapshots.map (·.tick) = [1, 3] := by decide +kernel
  obtain ⟨silent, retired, -, shown, -, drawn⟩ :=
    mirrors_newest .standard .openSpace watching stays
  rw [newest] at shown
  exact ⟨stays, clock, silent, retired, shown, numbers, kept, drawn⟩

end Client

end Volley
