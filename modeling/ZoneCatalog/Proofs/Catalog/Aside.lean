import ZoneCatalog.Proofs.Catalog.Views

/-! What is asked of a world beside locations, and what moves in it by itself, leaves the cache of
locations as it is. The layout of the store never changes. -/
namespace ZoneCatalog

/-- What lookups of locations see of the catalog. -/
def Catalog.locating (c : Catalog) : Cache LoadError Location × StoreKeys := (c.locations, c.keys)

theorem Catalog.steady_locating : Catalog.Steady Catalog.locating :=
  ⟨fun _ _ => rfl, fun _ _ => rfl⟩

theorem CacheOf.hidden_zones : CacheOf.zones.Hidden Catalog.locating := fun _ _ => rfl

theorem CacheOf.not_hidden_locations : ¬ CacheOf.locations.Hidden Catalog.locating := by
  intro hidden
  let c : Catalog :=
    { keys := {}, reloadEvery := 0, zones := { lifetime := 0 }, locations := { lifetime := 0 } }
  have same := congrArg (fun p => p.1.lifetime) (hidden c { lifetime := 1 })
  exact absurd same (by decide)

namespace World

variable {w v u : World}

/-- The cache of locations and the layout of the store stay as they are. -/
structure Keeps (w w' : World) : Prop where
  locations : w'.catalog.locations = w.catalog.locations
  keys : w'.catalog.keys = w.catalog.keys

theorem keeps_iff : w.Keeps v ↔ w.Same Catalog.locating v := by
  constructor
  · intro ⟨locations, keys⟩
    exact Prod.ext locations keys
  · intro same
    exact ⟨congrArg Prod.fst same, congrArg Prod.snd same⟩

namespace Keeps

theorem refl (w : World) : w.Keeps w := ⟨rfl, rfl⟩

theorem trans (first : w.Keeps v) (second : v.Keeps u) : w.Keeps u :=
  ⟨second.locations.trans first.locations, second.keys.trans first.keys⟩

theorem of_catalog (same : v.catalog = w.catalog) : w.Keeps v := keeps_iff.2 (.of_catalog same)

end Keeps

theorem runWorkers_keeps (w : World) : w.Keeps w.runWorkers :=
  keeps_iff.2 (w.runWorkers_same Catalog.steady_locating)

end World

/-! The calls. -/

/-- A call that waits for something else than the cache of locations, and will leave it as it is. -/
def Activity.Aside : Activity → Prop
  | .location .. => False
  | .working work => work.Ends fun finish => ∀ w : World, w.Keeps (finish w).2
  | .zone .. | .starting _ | .stopping .. | .sleeping _ => True

def Standing.Aside : Standing → Prop
  | .answered _ => True
  | .waiting activity => activity.Aside

theorem Activity.unseen_iff {activity : Activity} :
    activity.Unseen Catalog.locating ↔ activity.Aside := by
  cases activity with
  | location => exact iff_of_false CacheOf.not_hidden_locations not_false
  | working work => simp only [Unseen, Aside, World.keeps_iff]
  | zone => exact iff_of_true CacheOf.hidden_zones trivial
  | starting | stopping | sleeping => exact .rfl

namespace World

variable {w : World}

/-- A call has moved past the cache of locations. -/
structure Passes (w : World) (r : Standing × World) : Prop where
  aside : r.1.Aside
  keeps : w.Keeps r.2

theorem passes_of_leaves {r : Standing × World} (leaves : w.Leaves Catalog.locating r) :
    w.Passes r := by
  refine ⟨?_, keeps_iff.2 leaves.same⟩
  obtain ⟨_ | activity, v⟩ := r
  · trivial
  · exact Activity.unseen_iff.1 leaves.unseen

/-- Whatever begins but the lookup of a location passes the cache of locations. -/
theorem begin_passes (w : World) (step : Step)
    (other : ∀ location zone, step ≠ .getLocation location zone) : w.Passes (w.begin step) := by
  refine passes_of_leaves (w.begin_leaves Catalog.steady_locating ?_)
  cases step with
  | getLocation location zone => exact absurd rfl (other location zone)
  | getZone name => exact CacheOf.hidden_zones
  | _ => trivial

/-- What waits beside the cache of locations goes on beside it. -/
theorem proceed_passes (w : World) {activity : Activity} (aside : activity.Aside) :
    w.Passes (w.proceed activity) :=
  passes_of_leaves (w.proceed_leaves Catalog.steady_locating (Activity.unseen_iff.2 aside))

theorem giveUp_keeps (w : World) {activity : Activity} (aside : activity.Aside) :
    w.Keeps (w.giveUp activity) :=
  keeps_iff.2 (w.giveUp_same (Activity.unseen_iff.2 aside))

end World
end ZoneCatalog
