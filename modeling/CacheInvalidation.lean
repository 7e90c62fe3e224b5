import CacheInvalidation.ProtoConverter
import CacheInvalidation.OperationScheduler
import CacheInvalidation.Binary64
import CacheInvalidation.Smearer
import CacheInvalidation.RateLimits
import CacheInvalidation.Outbound
import CacheInvalidation.Deferral
import CacheInvalidation.Delivery
import CacheInvalidation.Restart
import CacheInvalidation.ThrottleTest
