/-
  KernelMemory.Paging.Flags — the attributes of a page mapping, apart from any table shape.

  That a mapping is present is implied: there are attributes only where there is a mapping.
-/

namespace KernelMemory

/-- How accesses through a mapping are cached. -/
inductive CachePolicy where
  | writeBack
  | writeThrough
  /-- Caching disabled, for device registers. -/
  | uncached
  deriving DecidableEq, Repr, Inhabited

/-- The word a cache policy is written with. -/
def CachePolicy.name : CachePolicy → String
  | writeBack => "WriteBack"
  | writeThrough => "WriteThrough"
  | uncached => "Uncached"

/-- Attributes of a mapping. -/
structure PageFlags where
  writable : Bool
  user : Bool
  noExecute : Bool
  global : Bool
  writeThrough : Bool
  noCache : Bool
  deriving DecidableEq, Repr

namespace PageFlags

/-- Read-only, for the kernel alone, cached. -/
def readOnly : PageFlags := ⟨false, false, false, false, false, false⟩

/-- Writable data of the kernel. -/
def kernelData : PageFlags := { readOnly with writable := true }

/-- Writable data that user code may access. -/
def userData : PageFlags := { readOnly with writable := true, user := true }

/-- The flags with the caching bits of a policy: write-through sets one of them, uncached
both. -/
def withCachePolicy (flags : PageFlags) (policy : CachePolicy) : PageFlags :=
  { flags with
    writeThrough := policy != .writeBack
    noCache := policy == .uncached }

/-- The policy the caching bits stand for; disabled caching wins over write-through. -/
def cachePolicy (flags : PageFlags) : CachePolicy :=
  if flags.noCache then .uncached
  else if flags.writeThrough then .writeThrough
  else .writeBack

/-- Technical form of the flags: writable or read-only, user or supervisor, executable,
global, and the cache policy. -/
def debug (flags : PageFlags) : String :=
  let access := if flags.writable then "W" else "R"
  let owner := if flags.user then "U" else "S"
  let execute := if flags.noExecute then "" else "X"
  let shared := if flags.global then "G" else ""
  s!"PageFlags({access}{owner}{execute}{shared} {flags.cachePolicy.name})"

@[simp] theorem cachePolicy_withCachePolicy (flags : PageFlags) (policy : CachePolicy) :
    (flags.withCachePolicy policy).cachePolicy = policy := by
  cases policy <;> rfl

@[simp] theorem writable_withCachePolicy (flags : PageFlags) (policy : CachePolicy) :
    (flags.withCachePolicy policy).writable = flags.writable := rfl

@[simp] theorem user_withCachePolicy (flags : PageFlags) (policy : CachePolicy) :
    (flags.withCachePolicy policy).user = flags.user := rfl

end PageFlags

end KernelMemory
