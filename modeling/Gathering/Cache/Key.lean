/-!
# Names of cached entries

Locations and replies share one cache. The name of an entry is built from
identifiers with colons between them, so that the entries of one event are the
entries whose names begin alike.
-/

namespace Gathering.Cache.Key

/-- How the names of the latest locations of an event begin. -/
def locationsOf (eventId : String) : String :=
  "location:latest:" ++ eventId ++ ":"

/-- The name of a participant's latest location. -/
def location (eventId participantId : String) : String :=
  locationsOf eventId ++ participantId

/-- How the names of the replies to an event begin. -/
def confirmationsOf (orgId eventId : String) : String :=
  "confirmation:" ++ orgId ++ ":" ++ eventId ++ ":"

/-- The name of a participant's reply. -/
def confirmation (orgId eventId participantId : String) : String :=
  confirmationsOf orgId eventId ++ participantId

end Gathering.Cache.Key
