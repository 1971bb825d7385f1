import LightWaf.Proxy.Metrics

/-!
# The text of the metrics

The lines that `render` of `waf-proxy/src/metrics.rs` writes, from the values
it has loaded.  The total latency is written as a floating-point number of
seconds; how such a number is written is a parameter.
-/

namespace LightWaf.Proxy

open LightWaf.Rust

/-- `CARGO_PKG_VERSION`. -/
def packageVersion : Text :=
  "1.0.2".toList

/-- A sample with one label, without its end of line. -/
def sampleLine (metric label value : Text) (count : Nat) : Text :=
  metric ++ '\x7b' :: (label ++ '=' :: '\x22' :: (value ++
    '\x22' :: '\x7d' :: ' ' :: Nat.toDigits 10 count))

/-- `waf_requests_total`, the metric of the decisions. -/
def requestsMetric : Text :=
  "waf_requests_total".toList

/-- `waf_request_duration_seconds_bucket`, the metric of the histogram. -/
def bucketMetric : Text :=
  "waf_request_duration_seconds_bucket".toList

/-- `waf_request_duration_seconds_sum`, the total latency. -/
def sumMetric : Text :=
  "waf_request_duration_seconds_sum".toList

/-- `waf_request_duration_seconds_count`, the number of observations. -/
def countMetric : Text :=
  "waf_request_duration_seconds_count".toList

/-- The lines in front of the first sample of a decision. -/
def leadingLines : List Text :=
  ["# HELP waf_up 1 if the WAF process is running.".toList,
    "# TYPE waf_up gauge".toList,
    "waf_up 1".toList,
    "# HELP waf_build_info Build information.".toList,
    "# TYPE waf_build_info gauge".toList,
    "waf_build_info\x7bversion=\x22".toList ++ packageVersion ++
      "\x22\x7d 1".toList,
    "# HELP waf_requests_total Total requests by final decision.".toList,
    "# TYPE waf_requests_total counter".toList]

/-- The lines in front of the histogram. -/
def histogramLines : List Text :=
  ["# HELP waf_request_duration_seconds Request handling latency in seconds.".toList,
    "# TYPE waf_request_duration_seconds histogram".toList]

/-- The lines of `render`; `seconds` writes a number of nanoseconds. -/
def renderLines (seconds : Nat → Text) (text : Rendered) : List Text :=
  leadingLines ++
    text.requests.map (fun (label, count) =>
      sampleLine requestsMetric "decision".toList label count.toNat) ++
    histogramLines ++
    text.buckets.map (fun (bound, count) =>
      sampleLine bucketMetric "le".toList bound count.toNat) ++
    [sampleLine bucketMetric "le".toList "+Inf".toList text.inf.toNat,
      sumMetric ++ ' ' :: seconds text.sumNanos.toNat,
      countMetric ++ ' ' :: Nat.toDigits 10 text.count.toNat]

/-- `render`, from the values loaded; `none` is a panic. -/
def render (build : Build) (seconds : Nat → Text)
    (loaded : Counter → UInt64) : Option Text :=
  (rendered build loaded).map fun text =>
    (renderLines seconds text).flatMap (· ++ ['\n'])

end LightWaf.Proxy
