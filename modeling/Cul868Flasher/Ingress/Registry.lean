import Cul868Flasher.Ingress.Site

/-!
# The registry of staged uploads

The methods of `_ArtifactRegistry`. An expired entry is removed and its file
deleted under the registry's lock; the file of a replaced entry is deleted after
the lock is released.
-/

namespace Cul868Flasher
open Python Effects

def stagedArtifactTtlSeconds : ℚ := 15 * 60

namespace ArtifactRegistry

def isExpired (entry : StagedArtifact) : AppProgram Bool :=
  if entry.claimed then return false
  else do
    let now : ℚ ← call .monotonic
    return decide (entry.expiresAt ≤ now)

def expiredOf : Entries → AppProgram (List String)
  | [] => return []
  | (identifier, entry) :: rest => do
    let expired ← isExpired entry
    let identifiers ← expiredOf rest
    return if expired then identifier :: identifiers else identifiers

def removeAll : List String → AppProgram Unit
  | [] => return ()
  | identifier :: rest => do
    let entry : Option StagedArtifact ← call (.pop identifier)
    match entry with
    | none => .raise (.keyError identifier)
    | some entry => do
      let _ : Unit ← call (.unlink entry.image.path)
      removeAll rest

def removeExpiredLocked : AppProgram Unit := do
  let entries : Entries ← call .entries
  let expired ← expiredOf entries
  removeAll expired

def unlinkAll : List Path → AppProgram Unit
  | [] => return ()
  | path :: rest => do
    let _ : Unit ← call (.unlink path)
    unlinkAll rest

/-- Put the entry in the place of those there were. -/
def stageLocked (image : HexImage) (preflight : FlashPreflight) :
    AppProgram (String × List Path) := do
  removeExpiredLocked
  let entries : Entries ← call .entries
  if entries.any (·.2.claimed) then
    .raise (.ingressError "a validated firmware image is already being submitted")
  else do
    let replaced : Entries ← call .clear
    let identifier : String ← call .tokenUrlsafe
    let now : ℚ ← call .monotonic
    let _ : Unit ← call (.insert identifier
      { image, preflight, expiresAt := now + stagedArtifactTtlSeconds, claimed := false })
    return (identifier, replaced.paths)

def stage (image : HexImage) (preflight : FlashPreflight) : AppProgram String := do
  let (identifier, replaced) ← withLock .registry (stageLocked image preflight)
  unlinkAll replaced
  return identifier

def claimLocked (identifier : String) : AppProgram StagedArtifact := do
  removeExpiredLocked
  let entries : Entries ← call .entries
  match entries.lookup identifier with
  | none => .raise (.ingressError "validated firmware image expired or was not found")
  | some entry =>
    if entry.claimed then
      .raise (.ingressError "validated firmware image is already being flashed")
    else do
      let _ : Unit ← call (.setClaimed identifier true)
      return { entry with claimed := true }

def claim (identifier : Json) : AppProgram StagedArtifact :=
  match identifier with
  | .str identifier =>
    if 16 ≤ identifier.length ∧ identifier.length ≤ 128 then
      withLock .registry (claimLocked identifier)
    else .raise (.ingressError "a validated firmware image is required")
  | _ => .raise (.ingressError "a validated firmware image is required")

def releaseLocked (identifier : String) : AppProgram Unit := do
  let entries : Entries ← call .entries
  match entries.lookup identifier with
  | none => return ()
  | some _ => call (.setClaimed identifier false)

def releaseClaim (identifier : String) : AppProgram Unit :=
  withLock .registry (releaseLocked identifier)

def consume (identifier : String) : AppProgram Unit :=
  withLock .registry do
    let _ : Option StagedArtifact ← call (.pop identifier)
    return ()

def expire : AppProgram Unit := withLock .registry removeExpiredLocked

def closeLocked : AppProgram (List Path) := do
  let entries : Entries ← call .clear
  return entries.paths

def close : AppProgram Unit := do
  let paths ← withLock .registry closeLocked
  unlinkAll paths

end ArtifactRegistry
end Cul868Flasher
