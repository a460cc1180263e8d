import DialCache.CacheTraversal

/-!
# The tasks of a cache instance
-/

namespace DialCache.CacheInstance

open AsyncPrograms ThreadPool CacheKeys CacheOperations RuntimeConfig RedisCache ShadowValidation
open CacheTraversal

variable {V X : Type}

/-- The code of every task. A task that needs Redis is only started by an instance that
has it. -/
def body (settings : Settings X) : CacheTask V → Async V X (Settlement V)
  | .call call => do return .value (← executeCacheOperation settings call)
  | .requestRun plan scope => do return .value (← requestLocalRun plan scope)
  | .sharedLayers plan layer => do return .value (← getThroughSharedLayers settings plan layer)
  | .localRun plan config => do return .value (← getThroughActiveLocal settings plan config)
  | .remoteRun plan localReason config _ =>
    match settings.redis with
    | some redis => do
      return .value (← getThroughRemote settings redis plan localReason config)
    | none => return .done
  | .fallback invocation labels => do return .value (← callFallback invocation labels)
  | .shadowRun job work => do
    runShadowValidation job work
    return .done
  | .shadowOperation job work deadlineStartedAtMs =>
    match settings.redis with
    | some redis => do
      return .verdict (← shadowOperation redis job work deadlineStartedAtMs)
    | none => return .done
  | .shadowReport _ work report => do
    recordShadowValidation work.plan.key report
    return .done

end DialCache.CacheInstance
