import ZoneCatalog.Catalog.Basic

/-! The two caches of a catalog under one description, so that a lookup is the same for both. -/
namespace ZoneCatalog

/-- One of the caches of a catalog. -/
structure CacheOf (V : Type) where
  name : CacheName
  get : Catalog → Cache LoadError V
  set : Catalog → Cache LoadError V → Catalog

namespace CacheOf

def zones : CacheOf Zone := ⟨.zones, (·.zones), fun c cache => { c with zones := cache }⟩

def locations : CacheOf Location :=
  ⟨.records, (·.locations), fun c cache => { c with locations := cache }⟩

end CacheOf
end ZoneCatalog
