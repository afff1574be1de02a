import Bulwark.Revocation.Blacklist

/-!
# Listings token by token

A listing need not be read to its end at once.  Whoever reads it asks for one token after the other,
and only when a listing has no token left to give does it ask its store for the next page.  Here it
is taken apart into these steps.

What it goes through may be any store.  All that a listing sees of it are the answers to its
requests for a page, and nothing says that two pages do not overlap.
-/

namespace Bulwark.Blacklist

/-- How a store answers requests for a page. -/
abbrev Scan (σ : Type) :=
  (keyPrefix : String) → (cursor count : Nat) → σ → Except StoreError (Nat × List String) × σ

/-- How a listing ends. -/
inductive ListingEnd where
  /-- All pages have been read. -/
  | complete
  /-- A page could not be read. -/
  | aborted (e : StoreError)
  deriving DecidableEq, Repr

/-- What a listing reports at its end. -/
def ListingEnd.events : ListingEnd → List Event
  | complete => []
  | aborted e => [.log (.of .warn "Blacklist listing aborted" [("error", e.message)])]

/-- A listing on its way through a store. -/
structure Listing (σ : Type) where
  store : σ
  /-- Where the next page starts. -/
  cursor : Nat
  /-- Whether a page has been read. -/
  started : Bool
  /-- The tokens to be given before the next page is read. -/
  buffer : List String
  /-- The tokens on the pages that have been read. -/
  seen : List String
  /-- The tokens that have been given. -/
  given : List String
  ending : Option ListingEnd

namespace Listing

variable {σ : Type}

/-- A listing of which nothing has been asked. -/
def start (store : σ) : Listing σ := ⟨store, 0, false, [], [], [], none⟩

/-- A key of a page is taken in, unless its token has been seen. -/
def withKey (keyPrefix : String) (l : Listing σ) (key : String) : Listing σ :=
  match Text.afterStart? keyPrefix key with
  | some token =>
    if l.seen.contains token then l
    else { l with buffer := l.buffer ++ [token], seen := l.seen ++ [token] }
  | none => l

/-- One step: a token is given, or a page is read, or there is nothing more to come. -/
def step (keyPrefix : String) (scan : Scan σ) (l : Listing σ) : Listing σ :=
  match l.ending, l.buffer with
  | some _, _ => l
  | none, token :: rest => { l with buffer := rest, given := l.given ++ [token] }
  | none, [] =>
    if l.started && l.cursor == 0 then { l with ending := some .complete }
    else match scan keyPrefix l.cursor pageSize l.store with
      | (.ok (next, keys), store) =>
        keys.foldl (withKey keyPrefix) { l with store, cursor := next, started := true }
      | (.error e, store) => { l with store, ending := some (.aborted e) }

end Listing

/-- The pages behind a gate. -/
def gateScan (now : Instant) : Scan Gate :=
  fun keyPrefix cursor count g => g.scan now keyPrefix cursor count

end Bulwark.Blacklist
