import ZoneCatalog.Dnssec.Error
import ZoneCatalog.Settings.Basic
import ZoneCatalog.Text.Quoted
import ZoneCatalog.Zone.Error

/-! What the library reports while it works. -/
namespace ZoneCatalog

inductive CacheName where
  | zones
  | records
deriving DecidableEq, Repr

def CacheName.text : CacheName → String
  | .zones => "zone cache"
  | .records => "record cache"

/-- A report. Spans of time are in milliseconds. -/
inductive Notice where
  /-- An interval shorter than the least one, which takes its place. -/
  | intervalTooShort (interval : String) (given least : Nat)
  | refresherStarted (period : Nat)
  | refresherStopped
  | refresherFailed
  | reloaded (zones : Nat)
  | reloadFailed (cause : StoreError)
  | zoneSkipped (zone : String) (cause : NameError)
  | feedFailed (cause : StoreError)
  | feedEnded
  | subscriptionFailed (pattern : String) (cause : StoreError)
  | alreadyStarted
  | notStarted
  | loaded (zones : Nat)
  | loadFailed (cause : StoreError)
  | servedUnsigned (zone : String) (cause : DnssecError)
  | servedStale (cache : CacheName) (key : String) (cause : LoadError)
  | fetchFailed (cache : CacheName) (key : String) (cause : LoadError)

namespace Notice

def level : Notice → LogLevel
  | .refresherStarted _ | .refresherStopped | .reloaded _ | .loaded _ => .info
  | .reloadFailed _ | .refresherFailed => .error
  | _ => .warn

def text : Notice → String
  | .intervalTooShort interval given least =>
    interval ++ " interval " ++ Text.duration given ++ " is too short, using " ++
      Text.duration least
  | .refresherStarted period =>
    "zone refresher started, reloading every " ++ Text.duration period
  | .refresherStopped => "zone refresher stopped"
  | .refresherFailed => "zone refresher task failed: overflow when adding duration to instant"
  | .reloaded zones =>
    "reloaded zone index with " ++ String.ofList (Text.decimal zones) ++ " zones"
  | .reloadFailed cause => "failed to reload zone index: " ++ cause.message
  | .zoneSkipped zone cause =>
    "skipping invalid zone name " ++ Text.quoted zone ++ ": " ++ cause.message
  | .feedFailed cause => "change feed error: " ++ cause.message
  | .feedEnded => "change feed closed, resubscribing on next forced reload"
  | .subscriptionFailed pattern cause =>
    "failed to subscribe to changes of " ++ pattern ++ ": " ++ cause.message
  | .alreadyStarted => "catalog already started"
  | .notStarted => "catalog shut down before it was started"
  | .loaded zones => "loaded " ++ String.ofList (Text.decimal zones) ++ " zones"
  | .loadFailed cause => "initial zone load failed, will retry: " ++ cause.message
  | .servedUnsigned zone cause =>
    "serving " ++ zone ++ " unsigned, loading its DNSSEC keys failed: " ++ cause.message
  | .servedStale cache key cause =>
    cache.text ++ ": refresh of " ++ key ++ " failed, serving stale entry: " ++ cause.message
  | .fetchFailed cache key cause =>
    cache.text ++ ": fetch of " ++ key ++ " failed: " ++ cause.message

end Notice
end ZoneCatalog
