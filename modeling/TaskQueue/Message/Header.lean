/-!
# Header names

The names of the headers by which clients, workers and promoters talk to each other.
-/

namespace TaskQueue.Header

/-! ## A delayed task -/

/-- Due time in seconds since 1970. -/
def scheduledAt : String := "scheduled_at"

/-- Name of the task that waits. -/
def taskName : String := "original_task"

/-- When the task was put on the queue. -/
def enqueuedAt : String := "enqueued_at"

/-! ## A retry -/

/-- How often the task has failed so far. -/
def retryAttempt : String := "retry_attempt"

/-- Due time as a timestamp. -/
def scheduledFor : String := "scheduled_for"

/-- The backoff in milliseconds. -/
def backoffMillis : String := "backoff_ms"

/-- The identifier that all runs of a task share. -/
def correlationId : String := "correlation_id"

/-- The text of the last failure. -/
def lastError : String := "last_error"

/-- When the task was first received. -/
def firstSeenAt : String := "first_seen_at"

/-! ## A dead letter -/

/-- Why the task was given up. -/
def error : String := "error"

/-- How often it had failed. -/
def retryCount : String := "retry_count"

/-- The offset of the message that was given up. -/
def fromOffset : String := "original_offset"

/-- The topic of the message that was given up. -/
def fromTopic : String := "original_topic"

/-- The trail of its processing. -/
def metadata : String := "metadata"

/-- When the task was given up. -/
def deadLetteredAt : String := "dlq_timestamp"

/-- Headers that could not be read, as they were. -/
def rawHeaders : String := "raw_headers"

/-! ## Promotion -/

/-- When a waiting message was moved to the active topic. -/
def promotedAt : String := "promoted_at"

end TaskQueue.Header
