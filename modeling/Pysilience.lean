import Pysilience.Lib.Transition
import Pysilience.CircuitBreaker.Window
import Pysilience.CircuitBreaker.Periods
import Pysilience.CircuitBreaker.Probes
import Pysilience.CircuitBreaker.HalfOpen
import Pysilience.CircuitBreaker.Lockout
import Pysilience.Lib.ArrivalCurve
import Pysilience.RateLimiter.Strategy
import Pysilience.RateLimiter.TokenBucket
import Pysilience.Cache.Backend
import Pysilience.Cache.MemoryBackend
import Pysilience.Lib.SingleFlight
import Pysilience.Cache.Callers
import Pysilience.Cache.AsyncReservations
import Pysilience.Cache.Release
import Pysilience.Cache.Coalescing
import Pysilience.Cache.IoCoalescing
import Pysilience.Lib.History
import Pysilience.Cache.Invalidation
import Pysilience.Lib.AdjacentWindows
import Pysilience.RateLimiter.SlidingWindow
import Pysilience.Bulkhead.Bulkhead
import Pysilience.Bulkhead.Calls
import Pysilience.Bulkhead.Permits
import Pysilience.Cache.Eviction
import Pysilience.Cache.Expiry
import Pysilience.Cache.BothPaths
import Pysilience.CircuitBreaker.OpenPeriod
import Pysilience.CircuitBreaker.Events
import Pysilience.Lib.Glob
import Pysilience.Redis.Database
import Pysilience.Redis.Backend
import Pysilience.Redis.Namespaces
import Pysilience.Serializer.Json
import Pysilience.Serializer.RoundTrip
import Pysilience.Lib.Stopping
import Pysilience.Serializer.Hmac
import Pysilience.Serializer.BadData
import Pysilience.Lib.AlignedWindows
import Pysilience.Lib.LazyMeter
import Pysilience.RateLimiter.FixedWindow
import Pysilience.RateLimiter.LeakyBucket
import Pysilience.RateLimiter.Algorithms
import Pysilience.RateLimiter.Queries
import Pysilience.RateLimiter.Acquire
import Pysilience.RateLimiter.Waits
import Pysilience.RateLimiter.ClockSkew
import Pysilience.Redis.Clear
import Pysilience.Cache.Keys
import Pysilience.Cache.Sequential
import Pysilience.Lib.LruInclusion
import Pysilience.Cache.Inclusion
import Pysilience.Core.Listeners
import Pysilience.Retry.Retry
import Pysilience.Retry.Attempts
import Pysilience.Retry.Backoff
import Pysilience.Timeout.Timeout
import Pysilience.Lib.IntervalTimer
import Pysilience.Timeout.Signals
import Pysilience.Serializer.Msgpack
import Pysilience.Serializer.Unpickling
import Pysilience.RateLimiter.Spacing
import Pysilience.CircuitBreaker.Execute
import Pysilience.Fallback.Fallback
import Pysilience.Bulkhead.Execute
import Pysilience.Core.Independence
import Pysilience.Serializer.Registrations
import Pysilience.Lib.Threads
import Pysilience.Lib.Greedy
import Pysilience.RateLimiter.Callers
import Pysilience.RateLimiter.Contention
import Pysilience.RateLimiter.Optimality
import Pysilience.Bulkhead.Threads
import Pysilience.CircuitBreaker.Load
import Pysilience.CircuitBreaker.Outage
import Pysilience.Cache.Transparency
import Pysilience.Cache.Herd
import Pysilience.Redis.Fleet
import Pysilience.Redis.Intruder
import Pysilience.Redis.Clearing
import Pysilience.Lib.WorkerPool
import Pysilience.Timeout.Pool
import Pysilience.Lib.Services
import Pysilience.RateLimiter.Execute
import Pysilience.Core.Composition
import Pysilience.Core.RetryStorm
